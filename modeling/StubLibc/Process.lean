import StubLibc.Malloc.Refinement
import StubLibc.Tls.Keys
import StubLibc.Strings.Compare
import StubLibc.VectorIo.Scatter

namespace StubLibc

open Malloc Tls

structure Process where
  heapPtr : Addr
  pthreadKeys : Fin 128 → PthreadKeyData
  pthreadKeyNext : Nat
  mem : Mem
  next_le : pthreadKeyNext ≤ 128
  halted : Bool

namespace Process

def init (m : Mem) : Process := ⟨heapStart, fun _ => ⟨0, 0⟩, 0, m, by omega, false⟩

def heap (p : Process) : Heap := ⟨p.heapPtr, p.mem⟩

def table (p : Process) : KeyTable := ⟨p.pthreadKeys, p.pthreadKeyNext, p.mem, p.next_le⟩

def withMem (p : Process) (m : Mem) : Process := { p with mem := m }

def withHeap (p : Process) (h : Heap) : Process := { p with heapPtr := h.heapPtr, mem := h.mem }

def withTable (p : Process) (t : KeyTable) : Process :=
  { p with pthreadKeys := t.pthreadKeys, pthreadKeyNext := t.pthreadKeyNext, mem := t.mem, next_le := t.next_le }

@[simp] theorem mem_withMem (p : Process) (m : Mem) : (p.withMem m).mem = m := rfl

@[simp] theorem halted_withMem (p : Process) (m : Mem) : (p.withMem m).halted = p.halted := rfl

@[simp] theorem heap_heapPtr (p : Process) : p.heap.heapPtr = p.heapPtr := rfl

@[simp] theorem heap_withHeap (p : Process) (h : Heap) : (p.withHeap h).heap = h := rfl

@[simp] theorem heap_withMem (p : Process) (m : Mem) : (p.withMem m).heap = ⟨p.heapPtr, m⟩ := rfl

@[simp] theorem heap_withTable (p : Process) (t : KeyTable) : (p.withTable t).heap = ⟨p.heapPtr, t.mem⟩ := rfl

@[simp] theorem table_withTable (p : Process) (t : KeyTable) : (p.withTable t).table = t := rfl

@[simp] theorem table_withMem (p : Process) (m : Mem) : (p.withMem m).table = p.table.withMem m := rfl

@[simp] theorem table_withHeap (p : Process) (h : Heap) : (p.withHeap h).table = p.table.withMem h.mem := rfl

end Process

def unwindGetIPInfo (_context ipBeforeInsn : Addr) (m : Mem) : BitVec 64 × Mem :=
  (0, if ipBeforeInsn ≠ 0 then storeLE m ipBeforeInsn (0 : BitVec 32) else m)

theorem unwindGetIPInfo_frame (context ipBeforeInsn : Addr) (m : Mem) (a : Addr) :
    (unwindGetIPInfo context ipBeforeInsn m).2 a = m a ∨ (ipBeforeInsn ≠ 0 ∧ Touches ipBeforeInsn 4 a) := by
  by_cases ha : ipBeforeInsn ≠ 0 ∧ Touches ipBeforeInsn 4 a
  · exact .inr ha
  · refine .inl ?_
    simp only [unwindGetIPInfo]
    split_ifs with h0
    · exact storeLE_outside _ _ _ fun ht => ha ⟨h0, ht⟩
    · rfl

inductive LibcCall
  | heap (c : HeapCall)
  | key (c : KeyCall)
  | memcpy (dest src : Addr) (n : BitVec 64)
  | memset (s : Addr) (c : Int) (n : BitVec 64)
  | memmove (dest src : Addr) (n : BitVec 64)
  | memcmp (s1 s2 : Addr) (n : BitVec 64)
  | strlen (s : Addr)
  | read (result : Int) (data : Nat → Byte) (fd : Int) (buf : Addr) (count : BitVec 64)
  | write (result : Int) (fd : Int) (buf : Addr) (count : BitVec 64)
  | readv (kernel : Nat → Int) (data : Nat → Nat → Byte) (fd : Int) (iov : Addr) (iovcnt : Int)
  | writev (kernel : Nat → Int) (fd : Int) (iov : Addr) (iovcnt : Int)
  | unwindGetIPInfo (context ipBeforeInsn : Addr)
  | exit (status : Int)
  | _exit (status : Int)
  | abort

inductive Ret
  | block (p : Addr) (request : Nat)
  | key (o : Obs)
  | addr (p : Addr)
  | int (r : Int)
  | len (r : BitVec 64)
  | vec (r : Int) (calls : List VectorIo.Syscall)
  deriving DecidableEq, Repr

namespace LibcCall

def exec : LibcCall → Process → Option (Ret × Process)
  | .heap c, p => some (.block (c.exec p.heap).1 c.request, p.withHeap (c.exec p.heap).2)
  | .key c, p => some (.key (c.exec p.table).1, p.withTable (c.exec p.table).2)
  | .memcpy dest src n, p =>
    let r := Strings.memcpy dest src n p.mem
    some (.addr r.1, p.withMem r.2)
  | .memset s c n, p =>
    let r := Strings.memset s c n p.mem
    some (.addr r.1, p.withMem r.2)
  | .memmove dest src n, p =>
    let r := Strings.memmove dest src n p.mem
    some (.addr r.1, p.withMem r.2)
  | .memcmp s1 s2 n, p => some (.int (Strings.memcmp s1 s2 n p.mem), p)
  | .strlen s, p => (Strings.strlen s p.mem).map fun r => (.len r, p)
  | .read result data fd buf count, p => some (.int result, p.withMem (VectorIo.readMem result data fd buf count p.mem))
  | .write result _ _ _, p => some (.int result, p)
  | .readv kernel data fd iov iovcnt, p =>
    let r := VectorIo.readvAt kernel data fd iov iovcnt p.mem
    some (.vec r.1 r.2.1, p.withMem r.2.2)
  | .writev kernel fd iov iovcnt, p =>
    let r := VectorIo.writev kernel fd (VectorIo.iovAt p.mem iov) iovcnt
    some (.vec r.1 r.2, p)
  | .unwindGetIPInfo context ipBeforeInsn, p =>
    let r := StubLibc.unwindGetIPInfo context ipBeforeInsn p.mem
    some (.len r.1, p.withMem r.2)
  | .exit _, _ => none
  | ._exit _, _ => none
  | .abort, _ => none

def step (acc : List (LibcCall × Ret) × Process) (c : LibcCall) : List (LibcCall × Ret) × Process :=
  if acc.2.halted then acc
  else
    match c.exec acc.2 with
    | none => (acc.1, { acc.2 with halted := true })
    | some (r, p) => (acc.1 ++ [(c, r)], p)

def run (cs : List LibcCall) (p : Process) : List (LibcCall × Ret) × Process := cs.foldl step ([], p)

def heapBlock : LibcCall × Ret → Option (Addr × Nat)
  | (.heap _, .block p n) => some (p, n)
  | _ => none

def keyEntry : LibcCall × Ret → Option (KeyCall × Obs)
  | (.key c, .key o) => some (c, o)
  | _ => none

def heapView (acc : List (LibcCall × Ret) × Process) : List (Addr × Nat) × Heap :=
  (acc.1.filterMap heapBlock, acc.2.heap)

def keyView (acc : List (LibcCall × Ret) × Process) : List (KeyCall × Obs) × KeyTable :=
  (acc.1.filterMap keyEntry, acc.2.table)

theorem heapView_step (acc : List (LibcCall × Ret) × Process) (c : LibcCall) :
    (∃ m, heapView (step acc c) = ((heapView acc).1, { (heapView acc).2 with mem := m })) ∨
    ∃ c', c = .heap c' ∧ heapView (step acc c) = HeapCall.step (heapView acc) c' := by
  unfold step
  split_ifs
  · exact .inl ⟨_, rfl⟩
  · cases c with
    | heap c' => exact .inr ⟨c', rfl, by simp [exec, heapView, heapBlock, HeapCall.step]⟩
    | strlen s =>
      cases h : Strings.strlen s acc.2.mem <;> exact .inl ⟨_, by simp [exec, h, heapView, heapBlock]; rfl⟩
    | _ => exact .inl ⟨_, by simp [exec, heapView, heapBlock]; rfl⟩

theorem keyView_step (acc : List (LibcCall × Ret) × Process) (c : LibcCall) :
    (∃ m, keyView (step acc c) = ((keyView acc).1, (keyView acc).2.withMem m)) ∨
    ∃ c', c = .key c' ∧ keyView (step acc c) = KeyCall.step (keyView acc) c' := by
  unfold step
  split_ifs
  · exact .inl ⟨_, rfl⟩
  · cases c with
    | key c' => exact .inr ⟨c', rfl, by simp [exec, keyView, keyEntry, KeyCall.step]⟩
    | strlen s =>
      cases h : Strings.strlen s acc.2.mem <;> exact .inl ⟨_, by simp [exec, h, keyView, keyEntry]; rfl⟩
    | _ => exact .inl ⟨_, by simp [exec, keyView, keyEntry]; rfl⟩

theorem foldl_heapView (P : List (Addr × Nat) × Heap → Prop) (Q : HeapCall → Prop)
    (hstep : ∀ acc c, Q c → P acc → P (HeapCall.step acc c))
    (hmem : ∀ acc (m : Mem), P acc → P (acc.1, { acc.2 with mem := m })) (cs : List LibcCall)
    (hq : ∀ c, LibcCall.heap c ∈ cs → Q c) (acc : List (LibcCall × Ret) × Process) (h : P (heapView acc)) :
    P (heapView (cs.foldl step acc)) :=
  List.foldlRecOn (motive := fun acc => P (heapView acc)) cs step acc h fun acc h c hc => by
    rcases heapView_step acc c with ⟨m, e⟩ | ⟨c', rfl, e⟩ <;> rw [e]
    · exact hmem _ m h
    · exact hstep _ c' (hq c' hc) h

theorem foldl_keyView (P : List (KeyCall × Obs) × KeyTable → Prop)
    (hstep : ∀ acc c, P acc → P (KeyCall.step acc c))
    (hmem : ∀ acc (m : Mem), P acc → P (acc.1, acc.2.withMem m)) (cs : List LibcCall)
    (acc : List (LibcCall × Ret) × Process) (h : P (keyView acc)) : P (keyView (cs.foldl step acc)) :=
  List.foldlRecOn (motive := fun acc => P (keyView acc)) cs step acc h fun acc h c _ => by
    rcases keyView_step acc c with ⟨m, e⟩ | ⟨c', -, e⟩ <;> rw [e]
    · exact hmem _ m h
    · exact hstep _ c' h

def Writes : LibcCall → Ret → Addr → Prop
  | .heap c, .block p _, a => c.Writes p a
  | .key c, _, a => c.Writes a
  | .memcpy dest _ n, _, a => Touches dest n.toNat a
  | .memset s _ n, _, a => Touches s n.toNat a
  | .memmove dest _ n, _, a => Touches dest n.toNat a
  | .read result _ _ buf _, _, a => Touches buf result.toNat a
  | .readv kernel _ _ _ _, .vec _ calls, a => a ∈ VectorIo.transferred id kernel calls 0
  | .unwindGetIPInfo _ ipBeforeInsn, _, a => ipBeforeInsn ≠ 0 ∧ Touches ipBeforeInsn 4 a
  | _, _, _ => False

theorem exec_frame (c : LibcCall) (p : Process) (a : Addr) :
    ∀ x ∈ c.exec p, x.2.mem a = p.mem a ∨ Writes c x.1 a := by
  cases c with
  | heap c => rintro _ ⟨⟩; exact HeapCall.exec_mem_frame c p.heap a
  | key c => rintro _ ⟨⟩; exact KeyCall.exec_mem_frame c p.table a
  | memcpy dest src n | memset dest _ n | memmove dest src n =>
    rintro _ ⟨⟩
    by_cases ha : Touches dest n.toNat a
    · exact .inr ha
    first
      | exact .inl (Strings.forLoop_outside _ _ _ ha)
      | exact .inl (Strings.memmove_outside _ _ _ _ ha)
  | read result data fd buf count => rintro _ ⟨⟩; exact VectorIo.readMem_frame result data fd buf count _ a
  | readv kernel data fd iov iovcnt => rintro _ ⟨⟩; exact VectorIo.readvAt_frame kernel data fd iov iovcnt _ a
  | unwindGetIPInfo context ipBeforeInsn => rintro _ ⟨⟩; exact unwindGetIPInfo_frame context ipBeforeInsn _ a
  | memcmp _ _ _ | write _ _ _ _ | writev _ _ _ _ => rintro _ ⟨⟩; exact .inl rfl
  | strlen s =>
    intro x hx
    obtain ⟨_, -, rfl⟩ := Option.map_eq_some'.1 hx
    exact .inl rfl
  | exit _ | _exit _ | abort => rintro _ ⟨⟩

def WritesWithin (m : Mem) (acc : List (LibcCall × Ret) × Process) : Prop :=
  ∀ a, acc.2.mem a = m a ∨ ∃ e ∈ acc.1, Writes e.1 e.2 a

theorem step_writesWithin (m : Mem) (acc : List (LibcCall × Ret) × Process) (c : LibcCall)
    (h : WritesWithin m acc) : WritesWithin m (step acc c) := by
  intro a
  unfold step
  split_ifs
  · exact h a
  · split
    · exact h a
    · next r p e =>
      rcases exec_frame c acc.2 a (r, p) e with hm | hw
      · rcases h a with h0 | ⟨x, hx, hxw⟩
        · exact .inl (hm.trans h0)
        · exact .inr ⟨x, List.mem_append_left _ hx, hxw⟩
      · exact .inr ⟨(c, r), List.mem_append_right _ (List.mem_singleton_self _), hw⟩

theorem run_writes_within_footprints (cs : List LibcCall) (p : Process) (a : Addr) :
    (run cs p).2.mem a = p.mem a ∨ ∃ e ∈ (run cs p).1, Writes e.1 e.2 a :=
  List.foldlRecOn (motive := WritesWithin p.mem) cs step ([], p) (fun _ => .inl rfl)
    (fun acc h c _ => step_writesWithin _ acc c h) a

def Fits : LibcCall → Prop
  | .heap c => c.Fits
  | _ => True

instance : (c : LibcCall) → Decidable c.Fits
  | .heap c => inferInstanceAs (Decidable c.Fits)
  | .key _ | .memcpy .. | .memset .. | .memmove .. | .memcmp .. | .strlen _ | .read .. | .write ..
  | .readv .. | .writev .. | .unwindGetIPInfo .. | .exit _ | ._exit _ | .abort => isTrue trivial

theorem run_heap_aligned (cs : List LibcCall) (m : Mem) :
    (run cs (Process.init m)).2.heapPtr.toNat % 16 = 0 ∧ (run cs (Process.init m)).2.heapPtr ≤ heapEnd ∧
    ∀ b ∈ (run cs (Process.init m)).1.filterMap heapBlock, b.1.toNat % 16 = 0 := by
  have ha := foldl_heapView HeapCall.Aligned (fun _ => True) (fun acc c _ h => HeapCall.step_aligned acc c h)
    (fun _ _ h => h) cs (fun _ _ => trivial) ([], Process.init m)
    ⟨show heapStart.toNat % 16 = 0 by decide, fun _ h => nomatch h⟩
  have hle := foldl_heapView (fun acc => acc.2.heapPtr ≤ heapEnd) (fun _ => True)
    (fun acc c _ h => HeapCall.step_heapPtr_le acc c h) (fun _ _ h => h) cs (fun _ _ => trivial)
    ([], Process.init m) (show heapStart ≤ heapEnd by decide)
  exact ⟨ha.1, hle, ha.2⟩

theorem run_heap_disjoint (cs : List LibcCall) (m : Mem) (hfit : ∀ c ∈ cs, c.Fits) :
    (∀ b ∈ (run cs (Process.init m)).1.filterMap heapBlock, b.1 ≠ 0 →
      heapStart.toNat ≤ b.1.toNat ∧ b.1.toNat + b.2 ≤ heapEnd.toNat) ∧
    ((run cs (Process.init m)).1.filterMap heapBlock).Pairwise (fun b b' => b.1 ≠ 0 → b'.1 ≠ 0 →
      b.1.toNat + b.2 ≤ b'.1.toNat ∨ b'.1.toNat + b'.2 ≤ b.1.toNat) :=
  (blocks_of_arenaInv _ (foldl_heapView (fun acc => ArenaInv (absRun acc)) HeapCall.Fits
    HeapCall.step_arenaInv (fun _ _ h => h) cs (fun _ hc => hfit _ hc) ([], Process.init m)
    arenaInv_init)).2.2

def heapCall : LibcCall × Ret → Option HeapCall
  | (.heap c, _) => some c
  | _ => none

theorem exec_heap_cases (c : LibcCall) (p : Process) :
    ∀ x ∈ c.exec p, (∃ c', c = .heap c' ∧ x = (.block (c'.exec p.heap).1 c'.request, p.withHeap (c'.exec p.heap).2)) ∨
      ((∀ c', c ≠ .heap c') ∧ x.2.heapPtr = p.heapPtr) := by
  cases c with
  | heap c => rintro _ ⟨⟩; exact .inl ⟨c, rfl, rfl⟩
  | strlen s =>
    intro x hx
    obtain ⟨_, -, rfl⟩ := Option.map_eq_some'.1 hx
    exact .inr ⟨fun _ h => (nomatch h), rfl⟩
  | exit _ | _exit _ | abort => rintro _ ⟨⟩
  | _ => rintro _ ⟨⟩; exact .inr ⟨fun _ h => (nomatch h), rfl⟩

theorem heapBlock_heapCall_of_not_heap {c : LibcCall} (hc : ∀ c', c ≠ .heap c') (r : Ret) :
    heapBlock (c, r) = none ∧ heapCall (c, r) = none := by
  cases c <;> first | exact ⟨rfl, rfl⟩ | exact absurd rfl (hc _)

def HeapRefines (acc : List (LibcCall × Ret) × Process) : Prop :=
  ArenaInv (absRun (heapView acc)) ∧
    absRun (heapView acc) = arenaRun ((acc.1.filterMap heapCall).map HeapCall.req)

theorem step_heapRefines (acc : List (LibcCall × Ret) × Process) (c : LibcCall) (hc : c.Fits)
    (h : HeapRefines acc) : HeapRefines (step acc c) := by
  unfold step
  split_ifs
  · exact h
  · split
    · exact h
    · next r p e =>
      obtain ⟨hi, hr⟩ := h
      rcases exec_heap_cases c acc.2 (r, p) e with ⟨c', rfl, he⟩ | ⟨hh, hp⟩
      · cases he
        have hv : heapView (acc.1 ++ [(.heap c', .block (c'.exec acc.2.heap).1 c'.request)],
            acc.2.withHeap (c'.exec acc.2.heap).2) = HeapCall.step (heapView acc) c' := by
          simp [heapView, heapBlock, HeapCall.step]
        refine ⟨hv ▸ HeapCall.step_arenaInv _ c' hc hi, ?_⟩
        rw [hv, HeapCall.step_refines _ c' hc hi.1 hi.2.1, hr]
        simp [heapCall, arenaRun, List.foldl_append]
      · dsimp only at hp
        obtain ⟨hb, hcall⟩ := heapBlock_heapCall_of_not_heap hh r
        have hv : absRun (heapView (acc.1 ++ [(c, r)], p)) = absRun (heapView acc) := by
          simp [absRun, heapView, hb, hp]
        exact ⟨hv ▸ hi, by simp only [hv, hr, List.filterMap_append, hcall, List.filterMap_cons_none,
          List.filterMap_nil, List.append_nil]⟩

theorem run_heap_refines (cs : List LibcCall) (m : Mem) (hfit : ∀ c ∈ cs, c.Fits) :
    absRun (heapView (run cs (Process.init m))) =
      arenaRun (((run cs (Process.init m)).1.filterMap heapCall).map HeapCall.req) :=
  (List.foldlRecOn (motive := HeapRefines) cs step ([], Process.init m) ⟨arenaInv_init, rfl⟩
    fun acc h c hc => step_heapRefines acc c (hfit c hc) h).2

theorem run_heap_refines_interleaved :
    (∀ c ∈ [LibcCall.heap (.malloc 24#64), .memset 0x500000#64 7 24#64, .key (.keyCreate 0x500000#64 0),
      .heap (.calloc 2#64 8#64), .strlen 0x500010#64, .heap (.malloc 0x100000#64), .heap (.malloc 8#64)], c.Fits) ∧
    absRun (heapView (run [.heap (.malloc 24#64), .memset 0x500000#64 7 24#64, .key (.keyCreate 0x500000#64 0),
      .heap (.calloc 2#64 8#64), .strlen 0x500010#64, .heap (.malloc 0x100000#64), .heap (.malloc 8#64)]
        (Process.init fun _ => 0))) =
      arenaRun (((run [.heap (.malloc 24#64), .memset 0x500000#64 7 24#64, .key (.keyCreate 0x500000#64 0),
        .heap (.calloc 2#64 8#64), .strlen 0x500010#64, .heap (.malloc 0x100000#64), .heap (.malloc 8#64)]
          (Process.init fun _ => 0)).1.filterMap heapCall).map HeapCall.req) :=
  ⟨by decide, run_heap_refines _ _ (by decide)⟩

theorem run_heap_disjoint_interleaved :
    (∀ c ∈ [LibcCall.heap (.malloc 24#64), .memset 0x500000#64 7 24#64, .key (.keyCreate 0x500000#64 0),
      .heap (.calloc 2#64 8#64), .strlen 0x500010#64, .heap (.malloc 8#64)], c.Fits) ∧
    (∀ b ∈ (run [.heap (.malloc 24#64), .memset 0x500000#64 7 24#64, .key (.keyCreate 0x500000#64 0),
      .heap (.calloc 2#64 8#64), .strlen 0x500010#64, .heap (.malloc 8#64)]
        (Process.init fun _ => 0)).1.filterMap heapBlock, b.1 ≠ 0 →
      heapStart.toNat ≤ b.1.toNat ∧ b.1.toNat + b.2 ≤ heapEnd.toNat) ∧
    ((run [.heap (.malloc 24#64), .memset 0x500000#64 7 24#64, .key (.keyCreate 0x500000#64 0),
      .heap (.calloc 2#64 8#64), .strlen 0x500010#64, .heap (.malloc 8#64)]
        (Process.init fun _ => 0)).1.filterMap heapBlock).Pairwise (fun b b' => b.1 ≠ 0 → b'.1 ≠ 0 →
      b.1.toNat + b.2 ≤ b'.1.toNat ∨ b'.1.toNat + b'.2 ≤ b.1.toNat) :=
  ⟨by decide, run_heap_disjoint _ _ (by decide)⟩

theorem run_keys_agree (cs : List LibcCall) (m : Mem) :
    createdKeys ((run cs (Process.init m)).1.filterMap keyEntry) =
      (List.range (run cs (Process.init m)).2.table.pthreadKeyNext).map (BitVec.ofNat 32) ∧
    ∀ k v, expected ((run cs (Process.init m)).1.filterMap keyEntry) k = some v →
      pthreadGetspecific k (run cs (Process.init m)).2.table = v := by
  have h := foldl_keyView (fun acc => KeyCall.KeysIssued acc ∧ KeyCall.Agrees acc)
    (fun acc c h => ⟨KeyCall.step_keysIssued acc c h.1, KeyCall.step_agrees acc c h.2⟩)
    (fun _ _ h => h) cs ([], Process.init m) ⟨rfl, fun _ _ hk => Option.noConfusion hk⟩
  exact ⟨h.1, fun k v hk => (h.2 k v hk).2⟩

theorem memcmp_memcpy (m : Mem) (d s : Addr) (n : BitVec 64) (hd : d.toNat + n.toNat ≤ 2 ^ 64)
    (hs : s.toNat + n.toNat ≤ 2 ^ 64) (hov : d.toNat + n.toNat ≤ s.toNat ∨ s.toNat + n.toNat ≤ d.toNat) :
    Strings.memcmp d s n (Strings.memcpy d s n m).2 = 0 := by
  simp only [Strings.memcpy, Strings.memcmp, Strings.copyForward_eq hd hs (by omega)]
  refine (Strings.memcmpLoop_eq_zero_iff _ _).2 fun j hj => ?_
  rw [Nat.zero_add, Strings.moved_index (by omega) (Nat.zero_le j) hj,
    Strings.moved_source (by omega) (by omega)]

theorem memcpy_then_memcmp (p : Process) (d s : Addr) (n : BitVec 64) (hp : p.halted = false)
    (hd : d.toNat + n.toNat ≤ 2 ^ 64) (hs : s.toNat + n.toNat ≤ 2 ^ 64)
    (hov : d.toNat + n.toNat ≤ s.toNat ∨ s.toNat + n.toNat ≤ d.toNat) :
    (run [.memcpy d s n, .memcmp d s n] p).1 = [(.memcpy d s n, .addr d), (.memcmp d s n, .int 0)] := by
  simp [run, step, hp, exec, memcmp_memcpy _ _ _ _ hd hs hov]

theorem memcpy_then_memcmp_disjoint :
    Strings.memcmp 0x1000#64 0x2000#64 8#64 (fun a : Addr => BitVec.ofNat 8 (a.toNat / 0x100)) ≠ 0 ∧
    (Process.init (fun a : Addr => BitVec.ofNat 8 (a.toNat / 0x100))).halted = false ∧ (0x1000#64).toNat + (8#64).toNat ≤ 2 ^ 64 ∧
    (0x2000#64).toNat + (8#64).toNat ≤ 2 ^ 64 ∧
    ((0x1000#64).toNat + (8#64).toNat ≤ (0x2000#64).toNat ∨ (0x2000#64).toNat + (8#64).toNat ≤ (0x1000#64).toNat) ∧
    (run [.memcpy 0x1000#64 0x2000#64 8#64, .memcmp 0x1000#64 0x2000#64 8#64]
      (Process.init (fun a : Addr => BitVec.ofNat 8 (a.toNat / 0x100)))).1 =
      [(.memcpy 0x1000#64 0x2000#64 8#64, .addr 0x1000#64), (.memcmp 0x1000#64 0x2000#64 8#64, .int 0)] :=
  ⟨by decide, rfl, by decide, by decide, .inl (by decide),
    memcpy_then_memcmp _ _ _ _ rfl (by decide) (by decide) (.inl (by decide))⟩

end LibcCall

end StubLibc
