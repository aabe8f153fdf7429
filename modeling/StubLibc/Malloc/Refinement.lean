import Mathlib
import StubLibc.Malloc.Bump

namespace StubLibc.Malloc

def roundUp16 (n : Nat) : Nat := (n + 15) / 16 * 16

def bumpAlloc (top n : Nat) : Option Nat × Nat :=
  if top + roundUp16 n ≤ heapEnd.toNat then (some top, top + roundUp16 n) else (none, top)

def arenaStep (acc : List (Option Nat × Nat) × Nat) : Option Nat → List (Option Nat × Nat) × Nat
  | none => (acc.1 ++ [(none, 0)], acc.2)
  | some n => (acc.1 ++ [((bumpAlloc acc.2 n).1, n)], (bumpAlloc acc.2 n).2)

def arenaRun (reqs : List (Option Nat)) : List (Option Nat × Nat) × Nat :=
  reqs.foldl arenaStep ([], heapStart.toNat)

def Apart (b b' : Option Nat × Nat) : Prop :=
  ∀ p p', b.1 = some p → b'.1 = some p' → p + b.2 ≤ p' ∨ p' + b'.2 ≤ p

def ArenaInv (acc : List (Option Nat × Nat) × Nat) : Prop :=
  heapStart.toNat ≤ acc.2 ∧ acc.2 ≤ heapEnd.toNat ∧
  (∀ b ∈ acc.1, ∀ p, b.1 = some p → heapStart.toNat ≤ p ∧ p + b.2 ≤ acc.2) ∧
  acc.1.Pairwise Apart

theorem bumpAlloc_cases (top n : Nat) :
    (top + roundUp16 n ≤ heapEnd.toNat ∧ bumpAlloc top n = (some top, top + roundUp16 n)) ∨
    (heapEnd.toNat < top + roundUp16 n ∧ bumpAlloc top n = (none, top)) := by
  unfold bumpAlloc
  split_ifs with h
  · exact .inl ⟨h, rfl⟩
  · exact .inr ⟨by omega, rfl⟩

theorem arenaInv_append_none {l : List (Option Nat × Nat)} {top : Nat} (n : Nat)
    (hi : ArenaInv (l, top)) : ArenaInv (l ++ [(none, n)], top) := by
  obtain ⟨hs, he, hin, hpw⟩ := hi
  refine ⟨hs, he, ?_, List.pairwise_append.2 ⟨hpw, List.pairwise_singleton _ _, ?_⟩⟩
  · simp only [List.mem_append, List.mem_singleton]
    rintro b (hb | rfl) p hp
    · exact hin b hb p hp
    · cases hp
  · rintro b _ b' hb' p p' _ hp'
    rw [List.mem_singleton.1 hb'] at hp'
    cases hp'

theorem arenaStep_inv (acc : List (Option Nat × Nat) × Nat) (req : Option Nat)
    (hi : ArenaInv acc) : ArenaInv (arenaStep acc req) := by
  cases req with
  | none => exact arenaInv_append_none 0 hi
  | some n =>
    rcases bumpAlloc_cases acc.2 n with ⟨hfit, hb⟩ | ⟨_, hb⟩ <;> simp only [arenaStep, hb]
    · obtain ⟨hs, he, hin, hpw⟩ := hi
      have hr : n ≤ roundUp16 n := by unfold roundUp16; omega
      refine ⟨by omega, hfit, ?_, List.pairwise_append.2 ⟨hpw, List.pairwise_singleton _ _, ?_⟩⟩
      · simp only [List.mem_append, List.mem_singleton]
        rintro b (hb' | rfl) p hp
        · have := hin b hb' p hp; omega
        · cases hp; omega
      · rintro b hb b' hb' p p' hp hp'
        rw [List.mem_singleton.1 hb'] at hp'
        cases hp'
        have := hin b hb p hp
        omega
    · exact arenaInv_append_none n hi

theorem arenaInv_init : ArenaInv ([], heapStart.toNat) :=
  ⟨le_rfl, by decide, fun _ h => absurd h (List.not_mem_nil _), List.Pairwise.nil⟩

theorem arenaRun_inv (reqs : List (Option Nat)) : ArenaInv (arenaRun reqs) :=
  List.foldlRecOn (motive := ArenaInv) reqs arenaStep _ arenaInv_init fun acc h r _ => arenaStep_inv acc r h

def granted (l : List (Option Nat × Nat)) : Nat := ((l.filter fun b => b.1.isSome).map fun b => roundUp16 b.2).sum

def Ledger (acc : List (Option Nat × Nat) × Nat) : Prop :=
  acc.2 = heapStart.toNat + granted acc.1 ∧
  (∀ b ∈ acc.1, b.1 = none → 0 < b.2 → heapEnd.toNat < acc.2 + roundUp16 b.2) ∧
  acc.1.Pairwise fun b b' => b.1 = none → 0 < b.2 → b.2 ≤ b'.2 → b'.1 = none

theorem roundUp16_mono {a b : Nat} (h : a ≤ b) : roundUp16 a ≤ roundUp16 b := by
  unfold roundUp16; omega

theorem granted_append (l : List (Option Nat × Nat)) (b : Option Nat × Nat) :
    granted (l ++ [b]) = granted l + if b.1.isSome then roundUp16 b.2 else 0 := by
  cases h : b.1.isSome <;> simp [granted, List.filter_append, h]

theorem ledger_snoc {l : List (Option Nat × Nat)} {top top' : Nat} (b : Option Nat × Nat) (hl : Ledger (l, top))
    (htop : top' = top + if b.1.isSome then roundUp16 b.2 else 0)
    (hfail : b.1 = none → 0 < b.2 → heapEnd.toNat < top + roundUp16 b.2)
    (hok : b.1.isSome → top + roundUp16 b.2 ≤ heapEnd.toNat) : Ledger (l ++ [b], top') := by
  obtain ⟨htop0, hf, hpw⟩ := hl
  dsimp only at htop0 hf hpw
  have hle : top ≤ top' := htop ▸ Nat.le_add_right _ _
  refine ⟨by dsimp only; rw [htop, granted_append, htop0, Nat.add_assoc], ?_, List.pairwise_append.2 ⟨hpw, List.pairwise_singleton _ _, ?_⟩⟩
  · simp only [List.mem_append, List.mem_singleton]
    rintro b' (hb' | rfl) hn h0
    · have := hf b' hb' hn h0; omega
    · have := hfail hn h0; omega
  · rintro b0 hb0 b' hb' hn h0 hb0le
    rw [List.mem_singleton.1 hb'] at hb0le ⊢
    have := hf b0 hb0 hn h0
    have := roundUp16_mono hb0le
    cases h : b.1 with
    | none => rfl
    | some p => have := hok (by simp [h]); omega

theorem arenaStep_ledger (acc : List (Option Nat × Nat) × Nat) (req : Option Nat) (hl : Ledger acc) :
    Ledger (arenaStep acc req) := by
  cases req with
  | none => exact ledger_snoc (none, 0) hl rfl (fun _ h0 => absurd h0 (lt_irrefl 0)) fun h => nomatch h
  | some n =>
    rcases bumpAlloc_cases acc.2 n with ⟨hfit, hb⟩ | ⟨hfail, hb⟩ <;> simp only [arenaStep, hb]
    · exact ledger_snoc (some acc.2, n) hl rfl (fun h => nomatch h) fun _ => hfit
    · exact ledger_snoc (none, n) hl rfl (fun _ _ => hfail) fun h => nomatch h

theorem arenaRun_ledger (reqs : List (Option Nat)) : Ledger (arenaRun reqs) :=
  List.foldlRecOn (motive := Ledger) reqs arenaStep _
    ⟨rfl, fun _ h => absurd h (List.not_mem_nil _), List.Pairwise.nil⟩ fun acc h r _ => arenaStep_ledger acc r h

def absPtr (p : Addr) : Option Nat := if p = 0 then none else some p.toNat

def absBlock (b : Addr × Nat) : Option Nat × Nat := (absPtr b.1, b.2)

def absRun (acc : List (Addr × Nat) × Heap) : List (Option Nat × Nat) × Nat :=
  (acc.1.map absBlock, acc.2.heapPtr.toNat)

namespace HeapCall

def req : HeapCall → Option Nat
  | .free _ => none
  | c => some c.request

def Fits (c : HeapCall) : Prop := c.request + heapEnd.toNat + 16 ≤ 2 ^ 64

instance (c : HeapCall) : Decidable c.Fits := inferInstanceAs (Decidable (_ ≤ _))

theorem req_eq (c : HeapCall) : c.req = c.mallocSize.map fun _ => c.request := by
  cases c <;> rfl

theorem request_of_mallocSize_none {c : HeapCall} (h : c.mallocSize = none) : c.request = 0 := by
  cases c <;> simp_all [mallocSize, request]

theorem mallocSize_toNat (c : HeapCall) (hc : c.Fits) : c.mallocSize.map BitVec.toNat = c.req := by
  cases c with
  | calloc nmemb size =>
    simp only [Fits, request] at hc
    simp only [mallocSize, req, request, Option.map_some', BitVec.toNat_mul]
    rw [Nat.mod_eq_of_lt (by omega)]
  | _ => rfl

end HeapCall

theorem roundUp_no_wrap (n : BitVec 64) (hn : n.toNat + heapEnd.toNat + 16 ≤ 2 ^ 64) :
    ((n + 15) &&& ~~~15).toNat = roundUp16 n.toNat := by
  rw [roundUp_toNat, BitVec.toNat_add, show (15 : BitVec 64).toNat = 15 from rfl,
    Nat.mod_eq_of_lt (by omega)]
  rfl

theorem malloc_of_fit (n : BitVec 64) (h : Heap) (he : h.heapPtr.toNat ≤ heapEnd.toNat)
    (hn : n.toNat + heapEnd.toNat + 16 ≤ 2 ^ 64)
    (hfit : h.heapPtr.toNat + roundUp16 n.toNat ≤ heapEnd.toNat) :
    malloc n h = (h.heapPtr, { h with heapPtr := h.heapPtr + ((n + 15) &&& ~~~15) }) ∧
    (h.heapPtr + ((n + 15) &&& ~~~15)).toNat = h.heapPtr.toNat + roundUp16 n.toNat := by
  have hsum : (h.heapPtr + ((n + 15) &&& ~~~15)).toNat = h.heapPtr.toNat + roundUp16 n.toNat := by
    rw [BitVec.toNat_add, roundUp_no_wrap n hn, Nat.mod_eq_of_lt (by unfold roundUp16; omega)]
  refine ⟨?_, hsum⟩
  rw [malloc_eq, if_neg]
  rw [BitVec.lt_def, hsum]
  omega

theorem malloc_of_not_fit (n : BitVec 64) (h : Heap) (he : h.heapPtr.toNat ≤ heapEnd.toNat)
    (hn : n.toNat + heapEnd.toNat + 16 ≤ 2 ^ 64)
    (hfit : heapEnd.toNat < h.heapPtr.toNat + roundUp16 n.toNat) : malloc n h = (0, h) := by
  rw [malloc_eq, if_pos]
  rw [BitVec.lt_def, BitVec.toNat_add, roundUp_no_wrap n hn,
    Nat.mod_eq_of_lt (by unfold roundUp16; omega)]
  exact hfit

theorem ne_zero_of_heapStart_le {p : Addr} (hs : heapStart.toNat ≤ p.toNat) : p ≠ 0 := fun e => by
  rw [e] at hs
  exact absurd hs (by decide)

theorem malloc_refines (n : BitVec 64) (h : Heap) (hs : heapStart.toNat ≤ h.heapPtr.toNat)
    (he : h.heapPtr.toNat ≤ heapEnd.toNat) (hn : n.toNat + heapEnd.toNat + 16 ≤ 2 ^ 64) :
    absPtr (malloc n h).1 = (bumpAlloc h.heapPtr.toNat n.toNat).1 ∧
    (malloc n h).2.heapPtr.toNat = (bumpAlloc h.heapPtr.toNat n.toNat).2 := by
  have hne := ne_zero_of_heapStart_le hs
  rcases bumpAlloc_cases h.heapPtr.toNat n.toNat with ⟨hfit, hb⟩ | ⟨hfit, hb⟩ <;> rw [hb]
  · obtain ⟨hm, hsum⟩ := malloc_of_fit n h he hn hfit
    rw [hm]
    exact ⟨if_neg hne, hsum⟩
  · rw [malloc_of_not_fit n h he hn hfit]
    exact ⟨if_pos rfl, rfl⟩

namespace HeapCall

theorem step_refines (acc : List (Addr × Nat) × Heap) (c : HeapCall) (hc : c.Fits)
    (hs : heapStart.toNat ≤ acc.2.heapPtr.toNat) (he : acc.2.heapPtr.toNat ≤ heapEnd.toNat) :
    absRun (step acc c) = arenaStep (absRun acc) c.req := by
  have hm := mallocSize_toNat c hc
  rw [req_eq] at hm ⊢
  simp only [absRun, step, List.map_append, List.map_singleton, exec_fst, exec_heapPtr]
  cases hsz : c.mallocSize with
  | none =>
    simp only [Option.map_none', Option.getD_none, arenaStep, absBlock, absPtr, if_true,
      request_of_mallocSize_none hsz]
  | some n =>
    rw [hsz, Option.map_some', Option.map_some', Option.some_inj] at hm
    obtain ⟨h1, h2⟩ := malloc_refines n acc.2 hs he (by rw [hm]; exact hc)
    simp only [Option.map_some', Option.getD_some, arenaStep, absBlock, h1, h2, hm]

theorem step_arenaInv (acc : List (Addr × Nat) × Heap) (c : HeapCall) (hc : c.Fits)
    (hi : ArenaInv (absRun acc)) : ArenaInv (absRun (step acc c)) :=
  step_refines acc c hc hi.1 hi.2.1 ▸ arenaStep_inv _ _ hi

theorem foldl_refines (cs : List HeapCall) (hfit : ∀ c ∈ cs, c.Fits) :
    ∀ acc, ArenaInv (absRun acc) →
      absRun (cs.foldl step acc) = (cs.map req).foldl arenaStep (absRun acc) := by
  induction cs with
  | nil => intro _ _; rfl
  | cons c cs ih =>
    intro acc hi
    have hc := hfit c (List.mem_cons_self _ _)
    simp only [List.foldl_cons, List.map_cons, ← step_refines acc c hc hi.1 hi.2.1]
    exact ih (fun c' h' => hfit c' (List.mem_cons_of_mem _ h')) _ (step_arenaInv acc c hc hi)

theorem run_refines (cs : List HeapCall) (m : Mem) (hfit : ∀ c ∈ cs, c.Fits) :
    absRun (run cs (Heap.init m)) = arenaRun (cs.map req) :=
  foldl_refines cs hfit _ arenaInv_init

theorem run_refines_mixed :
    (∀ c ∈ [.malloc 24#64, .calloc 3#64 8#64, .free 0x500000#64, .malloc 0x100000#64], Fits c) ∧
    absRun (run [.malloc 24#64, .calloc 3#64 8#64, .free 0x500000#64, .malloc 0x100000#64]
      (Heap.init fun _ => 0)) =
      arenaRun ([.malloc 24#64, .calloc 3#64 8#64, .free 0x500000#64, .malloc 0x100000#64].map req) :=
  ⟨by decide, run_refines _ _ (by decide)⟩

theorem run_inv (cs : List HeapCall) (m : Mem) (hfit : ∀ c ∈ cs, c.Fits) :
    ArenaInv (absRun (run cs (Heap.init m))) := by
  rw [run, foldl_refines cs hfit ([], Heap.init m) arenaInv_init]
  exact arenaRun_inv _

end HeapCall

def FitReachable (h : Heap) : Prop :=
  ∃ cs m, (∀ c ∈ cs, HeapCall.Fits c) ∧ (HeapCall.run cs (Heap.init m)).2 = h

theorem fitReachable_bounds {h : Heap} (hr : FitReachable h) :
    heapStart.toNat ≤ h.heapPtr.toNat ∧ h.heapPtr.toNat ≤ heapEnd.toNat := by
  obtain ⟨cs, m, hfit, rfl⟩ := hr
  exact ⟨(HeapCall.run_inv cs m hfit).1, (HeapCall.run_inv cs m hfit).2.1⟩

theorem absPtr_eq_some {p : Addr} (hp : p ≠ 0) : absPtr p = some p.toNat := if_neg hp

theorem blocks_of_arenaInv (acc : List (Addr × Nat) × Heap) (hi : ArenaInv (absRun acc)) :
    heapStart.toNat ≤ acc.2.heapPtr.toNat ∧ acc.2.heapPtr.toNat ≤ heapEnd.toNat ∧
    (∀ b ∈ acc.1, b.1 ≠ 0 → heapStart.toNat ≤ b.1.toNat ∧ b.1.toNat + b.2 ≤ heapEnd.toNat) ∧
    acc.1.Pairwise (fun b b' => b.1 ≠ 0 → b'.1 ≠ 0 →
      b.1.toNat + b.2 ≤ b'.1.toNat ∨ b'.1.toNat + b'.2 ≤ b.1.toNat) := by
  obtain ⟨hs, he, hin, hpw⟩ := hi
  simp only [absRun] at hs he hin hpw
  refine ⟨hs, he, fun b hb hb0 => ?_, (List.pairwise_map.1 hpw).imp fun hab ha hb => ?_⟩
  · have := hin (absBlock b) (List.mem_map_of_mem _ hb) b.1.toNat (absPtr_eq_some hb0)
    exact ⟨this.1, by simp only [absBlock] at this; omega⟩
  · exact hab _ _ (absPtr_eq_some ha) (absPtr_eq_some hb)

theorem run_blocks_disjoint (cs : List HeapCall) (m : Mem) (hfit : ∀ c ∈ cs, c.Fits) :
    heapStart.toNat ≤ (HeapCall.run cs (Heap.init m)).2.heapPtr.toNat ∧
    (HeapCall.run cs (Heap.init m)).2.heapPtr.toNat ≤ heapEnd.toNat ∧
    (∀ b ∈ (HeapCall.run cs (Heap.init m)).1, b.1 ≠ 0 →
      heapStart.toNat ≤ b.1.toNat ∧ b.1.toNat + b.2 ≤ heapEnd.toNat) ∧
    (HeapCall.run cs (Heap.init m)).1.Pairwise (fun b b' => b.1 ≠ 0 → b'.1 ≠ 0 →
      b.1.toNat + b.2 ≤ b'.1.toNat ∨ b'.1.toNat + b'.2 ≤ b.1.toNat) :=
  blocks_of_arenaInv _ (HeapCall.run_inv cs m hfit)

theorem run_blocks_disjoint_mixed :
    (∀ c ∈ [.malloc 24#64, .calloc 3#64 8#64, .free 0x500000#64, .realloc 0x500000#64 40#64],
      HeapCall.Fits c) ∧
    heapStart.toNat ≤ (HeapCall.run [.malloc 24#64, .calloc 3#64 8#64, .free 0x500000#64,
      .realloc 0x500000#64 40#64] (Heap.init fun _ => 0)).2.heapPtr.toNat ∧
    (HeapCall.run [.malloc 24#64, .calloc 3#64 8#64, .free 0x500000#64, .realloc 0x500000#64 40#64]
      (Heap.init fun _ => 0)).2.heapPtr.toNat ≤ heapEnd.toNat ∧
    (∀ b ∈ (HeapCall.run [.malloc 24#64, .calloc 3#64 8#64, .free 0x500000#64,
        .realloc 0x500000#64 40#64] (Heap.init fun _ => 0)).1, b.1 ≠ 0 →
      heapStart.toNat ≤ b.1.toNat ∧ b.1.toNat + b.2 ≤ heapEnd.toNat) ∧
    (HeapCall.run [.malloc 24#64, .calloc 3#64 8#64, .free 0x500000#64, .realloc 0x500000#64 40#64]
      (Heap.init fun _ => 0)).1.Pairwise (fun b b' => b.1 ≠ 0 → b'.1 ≠ 0 →
        b.1.toNat + b.2 ≤ b'.1.toNat ∨ b'.1.toNat + b'.2 ≤ b.1.toNat) :=
  ⟨by decide, run_blocks_disjoint _ _ (by decide)⟩

theorem fitReachable_init (m : Mem) : FitReachable (Heap.init m) :=
  ⟨[], m, fun _ h => absurd h (List.not_mem_nil _), rfl⟩

theorem malloc_ne_null_iff (h : Heap) (hr : FitReachable h) (n : BitVec 64)
    (hn : n.toNat + heapEnd.toNat + 16 ≤ 2 ^ 64) :
    (malloc n h).1 ≠ 0 ↔ (n.toNat + 15) / 16 * 16 ≤ heapEnd.toNat - h.heapPtr.toNat := by
  obtain ⟨hs, he⟩ := fitReachable_bounds hr
  have h1 := (malloc_refines n h hs he hn).1
  have hiff : (malloc n h).1 ≠ 0 ↔ absPtr (malloc n h).1 ≠ none := by
    unfold absPtr; split_ifs <;> simp_all
  rw [hiff, h1]
  rcases bumpAlloc_cases h.heapPtr.toNat n.toNat with ⟨hf, hb⟩ | ⟨hf, hb⟩ <;>
    simp only [hb, roundUp16] at hf ⊢ <;> simp <;> omega

theorem malloc_ne_null_iff_at_init :
    FitReachable (Heap.init fun _ => 0) ∧ (0x100000#64).toNat + heapEnd.toNat + 16 ≤ 2 ^ 64 ∧
    ((malloc 0x100000#64 (Heap.init fun _ => 0)).1 ≠ 0 ↔
      ((0x100000#64).toNat + 15) / 16 * 16 ≤ heapEnd.toNat - (Heap.init fun _ => 0).heapPtr.toNat) :=
  ⟨fitReachable_init _, by decide, malloc_ne_null_iff _ (fitReachable_init _) _ (by decide)⟩

theorem calloc_fits_zeroed (h : Heap) (hr : FitReachable h) (nmemb size : BitVec 64)
    (hn : nmemb.toNat * size.toNat + heapEnd.toNat + 16 ≤ 2 ^ 64) :
    ((calloc nmemb size h).1 ≠ 0 →
      nmemb.toNat * size.toNat ≤ heapEnd.toNat - (calloc nmemb size h).1.toNat ∧
      ∀ i < nmemb.toNat * size.toNat,
        (calloc nmemb size h).2.mem (index (calloc nmemb size h).1 i) = 0) ∧
    (heapEnd.toNat - h.heapPtr.toNat < nmemb.toNat * size.toNat → calloc nmemb size h = (0, h)) := by
  obtain ⟨hs, he⟩ := fitReachable_bounds hr
  have htot : (nmemb * size).toNat = nmemb.toNat * size.toNat := by
    rw [BitVec.toNat_mul, Nat.mod_eq_of_lt (by omega)]
  have hn' : (nmemb * size).toNat + heapEnd.toNat + 16 ≤ 2 ^ 64 := by rw [htot]; exact hn
  have hr16 : nmemb.toNat * size.toNat ≤ roundUp16 (nmemb.toNat * size.toNat) := by
    unfold roundUp16; omega
  have hne := ne_zero_of_heapStart_le hs
  rcases Nat.lt_or_ge heapEnd.toNat (h.heapPtr.toNat + roundUp16 (nmemb * size).toNat) with hfit | hfit
  · have hc : calloc nmemb size h = (0, h) := by
      simp only [calloc, malloc_of_not_fit _ h he hn' hfit, ne_eq, not_true_eq_false, if_false]
    exact ⟨fun h0 => absurd (congrArg Prod.fst hc) h0, fun _ => hc⟩
  · obtain ⟨hm, -⟩ := malloc_of_fit _ h he hn' hfit
    have hc : calloc nmemb size h =
        (h.heapPtr, { h with heapPtr := h.heapPtr + ((nmemb * size + 15) &&& ~~~15),
                             mem := Strings.fill h.heapPtr 0 h.mem (nmemb * size).toNat }) := by
      simp only [calloc, hm, ne_eq, hne, not_false_eq_true, if_true]
    rw [htot] at hfit hc
    rw [hc]
    dsimp only
    refine ⟨fun _ => ⟨by omega, fun i hi => ?_⟩, fun hlt => by omega⟩
    rw [Strings.fill_eq _ _ _ (by omega)]
    exact if_pos (inRegion_index (by omega) hi)

theorem calloc_fits_zeroed_at_init :
    FitReachable (Heap.init fun _ => 1) ∧ (4#64).toNat * (4#64).toNat + heapEnd.toNat + 16 ≤ 2 ^ 64 ∧
    (((calloc 4#64 4#64 (Heap.init fun _ => 1)).1 ≠ 0 →
      (4#64).toNat * (4#64).toNat ≤ heapEnd.toNat - (calloc 4#64 4#64 (Heap.init fun _ => 1)).1.toNat ∧
      ∀ i < (4#64).toNat * (4#64).toNat, (calloc 4#64 4#64 (Heap.init fun _ => 1)).2.mem
        (index (calloc 4#64 4#64 (Heap.init fun _ => 1)).1 i) = 0) ∧
    (heapEnd.toNat - (Heap.init fun _ => 1).heapPtr.toNat < (4#64).toNat * (4#64).toNat →
      calloc 4#64 4#64 (Heap.init fun _ => 1) = (0, Heap.init fun _ => 1))) :=
  ⟨fitReachable_init _, by decide, calloc_fits_zeroed _ (fitReachable_init _) _ _ (by decide)⟩

theorem posixMemalign_ignores_alignment (h : Heap) (hr : FitReachable h) (memptr alignment size : BitVec 64)
    (hn : size.toNat + heapEnd.toNat + 16 ≤ 2 ^ 64)
    (hroom : (size.toNat + 15) / 16 * 16 ≤ heapEnd.toNat - h.heapPtr.toNat) :
    (posixMemalign memptr alignment size h).1 = 0 ∧
      loadU64 (posixMemalign memptr alignment size h).2.mem memptr = h.heapPtr := by
  obtain ⟨hs, he⟩ := fitReachable_bounds hr
  obtain ⟨hm, -⟩ := malloc_of_fit size h he hn (by unfold roundUp16; omega)
  simpa [posixMemalign, hm, loadU64_storeLE] using ne_zero_of_heapStart_le hs

theorem posixMemalign_ignores_alignment_after_malloc :
    (malloc 16#64 (Heap.init fun _ => 0)).2.heapPtr = 0x500010#64 ∧ (0x500010#64).toNat % 32 ≠ 0 ∧
    FitReachable (malloc 16#64 (Heap.init fun _ => 0)).2 ∧ (16#64).toNat + heapEnd.toNat + 16 ≤ 2 ^ 64 ∧
    ((16#64).toNat + 15) / 16 * 16 ≤ heapEnd.toNat - (malloc 16#64 (Heap.init fun _ => 0)).2.heapPtr.toNat ∧
    (posixMemalign 0x2000#64 32#64 16#64 (malloc 16#64 (Heap.init fun _ => 0)).2).1 = 0 ∧
    loadU64 (posixMemalign 0x2000#64 32#64 16#64 (malloc 16#64 (Heap.init fun _ => 0)).2).2.mem 0x2000#64 =
      (malloc 16#64 (Heap.init fun _ => 0)).2.heapPtr :=
  have hr : FitReachable (malloc 16#64 (Heap.init fun _ => 0)).2 :=
    ⟨[.malloc 16#64], fun _ => 0, by decide, rfl⟩
  ⟨by decide, by decide, hr, by decide, by decide,
    posixMemalign_ignores_alignment _ hr 0x2000#64 32#64 16#64 (by decide) (by decide)⟩

theorem absPtr_eq_none_iff (p : Addr) : absPtr p = none ↔ p = 0 := by
  unfold absPtr
  split_ifs with h
  · exact ⟨fun _ => h, fun _ => rfl⟩
  · exact ⟨fun e => (nomatch e), fun e => absurd e h⟩

theorem granted_map_absBlock (l : List (Addr × Nat)) :
    granted (l.map absBlock) = ((l.filter fun b => b.1 ≠ 0).map fun b => roundUp16 b.2).sum := by
  induction l with
  | nil => rfl
  | cons b l ih =>
    by_cases h : b.1 = 0#64 <;>
      simp [granted, absBlock, absPtr, h, List.filter_cons] at ih ⊢ <;> omega

theorem run_reclaims_nothing (cs : List HeapCall) (m : Mem) (hfit : ∀ c ∈ cs, c.Fits) :
    (HeapCall.run cs (Heap.init m)).2.heapPtr.toNat = heapStart.toNat +
      (((HeapCall.run cs (Heap.init m)).1.filter fun b => b.1 ≠ 0).map fun b => roundUp16 b.2).sum ∧
    (HeapCall.run cs (Heap.init m)).1.Pairwise fun b b' => b.1 = 0 → 0 < b.2 → b.2 ≤ b'.2 → b'.1 = 0 := by
  have hl : Ledger (absRun (HeapCall.run cs (Heap.init m))) := by
    rw [HeapCall.run, HeapCall.foldl_refines cs hfit ([], Heap.init m) arenaInv_init]
    exact arenaRun_ledger _
  obtain ⟨htop, -, hpw⟩ := hl
  refine ⟨by rw [← granted_map_absBlock]; exact htop, (List.pairwise_map.1 hpw).imp fun h h0 hn hle => ?_⟩
  simp only [absBlock, absPtr_eq_none_iff] at h
  exact h h0 hn hle

theorem run_reclaims_nothing_after_failure :
    (∀ c ∈ [.malloc 0x80000#64, .malloc 0x90000#64, .free 0x500000#64, .calloc 0x90000#64 1#64,
      .malloc 0x10000#64], HeapCall.Fits c) ∧
    (HeapCall.run [.malloc 0x80000#64, .malloc 0x90000#64, .free 0x500000#64, .calloc 0x90000#64 1#64,
      .malloc 0x10000#64] (Heap.init fun _ => 0)).2.heapPtr.toNat = heapStart.toNat +
      (((HeapCall.run [.malloc 0x80000#64, .malloc 0x90000#64, .free 0x500000#64, .calloc 0x90000#64 1#64,
        .malloc 0x10000#64] (Heap.init fun _ => 0)).1.filter fun b => b.1 ≠ 0).map fun b => roundUp16 b.2).sum ∧
    (HeapCall.run [.malloc 0x80000#64, .malloc 0x90000#64, .free 0x500000#64, .calloc 0x90000#64 1#64,
      .malloc 0x10000#64] (Heap.init fun _ => 0)).1.Pairwise
        fun b b' => b.1 = 0 → 0 < b.2 → b.2 ≤ b'.2 → b'.1 = 0 :=
  ⟨by decide, run_reclaims_nothing _ _ (by decide)⟩

end StubLibc.Malloc
