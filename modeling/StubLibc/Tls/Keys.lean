import StubLibc.Machine

namespace StubLibc.Tls

structure PthreadKeyData where
  destructor : Addr
  data : Addr
  deriving DecidableEq, Repr

structure KeyTable where
  pthreadKeys : Fin 128 → PthreadKeyData
  pthreadKeyNext : Nat
  mem : Mem
  next_le : pthreadKeyNext ≤ 128

def KeyTable.init (m : Mem) : KeyTable := ⟨fun _ => ⟨0, 0⟩, 0, m, by omega⟩

def KeyTable.withMem (t : KeyTable) (m : Mem) : KeyTable := { t with mem := m }

@[simp] theorem KeyTable.withMem_mem (t : KeyTable) (m : Mem) : (t.withMem m).mem = m := rfl

def pthreadKeyCreate (key destructor : Addr) (t : KeyTable) : Int × KeyTable :=
  if h : t.pthreadKeyNext ≥ 128 then (-1, t)
  else
    (0, { pthreadKeys := Function.update t.pthreadKeys ⟨t.pthreadKeyNext, by omega⟩ ⟨destructor, 0⟩
          pthreadKeyNext := t.pthreadKeyNext + 1
          mem := storeLE t.mem key (BitVec.ofNat 32 t.pthreadKeyNext)
          next_le := by omega })

def pthreadKeyDelete (key : BitVec 32) (t : KeyTable) : Int × KeyTable :=
  if h : key.toNat ≥ 128 then (-1, t)
  else
    let i : Fin 128 := ⟨key.toNat, by omega⟩
    (0, { t with pthreadKeys := Function.update t.pthreadKeys i { t.pthreadKeys i with destructor := 0 } })

def pthreadGetspecific (key : BitVec 32) (t : KeyTable) : Addr :=
  if h : key.toNat ≥ 128 then 0 else (t.pthreadKeys ⟨key.toNat, by omega⟩).data

def pthreadSetspecific (key : BitVec 32) (value : Addr) (t : KeyTable) : Int × KeyTable :=
  if h : key.toNat ≥ 128 then (-1, t)
  else
    let i : Fin 128 := ⟨key.toNat, by omega⟩
    (0, { t with pthreadKeys := Function.update t.pthreadKeys i { t.pthreadKeys i with data := value } })

inductive KeyCall
  | keyCreate (key destructor : Addr)
  | keyDelete (key : BitVec 32)
  | getspecific (key : BitVec 32)
  | setspecific (key : BitVec 32) (value : Addr)
  deriving DecidableEq, Repr

inductive Obs
  | status (r : Int)
  | created (r : Int) (key : BitVec 32)
  | value (p : Addr)
  deriving DecidableEq, Repr

namespace KeyCall

def exec : KeyCall → KeyTable → Obs × KeyTable
  | .keyCreate key destructor, t =>
    let r := pthreadKeyCreate key destructor t
    (.created r.1 (loadU32 r.2.mem key), r.2)
  | .keyDelete key, t => let r := pthreadKeyDelete key t; (.status r.1, r.2)
  | .getspecific key, t => (.value (pthreadGetspecific key t), t)
  | .setspecific key value, t => let r := pthreadSetspecific key value t; (.status r.1, r.2)

def step (acc : List (KeyCall × Obs) × KeyTable) (c : KeyCall) : List (KeyCall × Obs) × KeyTable :=
  (acc.1 ++ [(c, (c.exec acc.2).1)], (c.exec acc.2).2)

def run (cs : List KeyCall) (t : KeyTable) : List (KeyCall × Obs) × KeyTable := cs.foldl step ([], t)

end KeyCall

def createdKey : KeyCall × Obs → Option (BitVec 32)
  | (.keyCreate _ _, .created r k) => if r = 0 then some k else none
  | _ => none

def createdKeys (h : List (KeyCall × Obs)) : List (BitVec 32) := h.filterMap createdKey

def expect (e : BitVec 32 → Option Addr) : KeyCall × Obs → BitVec 32 → Option Addr
  | (.keyCreate _ _, .created r k) => if r = 0 then Function.update e k (some 0) else e
  | (.keyDelete k, _) => Function.update e k none
  | (.setspecific k v, .status r) =>
    if r = 0 ∧ (e k).isSome then Function.update e k (some v) else e
  | _ => e

def expected (h : List (KeyCall × Obs)) : BitVec 32 → Option Addr := h.foldl expect fun _ => none

variable {t : KeyTable} {key k : BitVec 32}

theorem create_of_full (key destructor : Addr) (h : 128 ≤ t.pthreadKeyNext) :
    pthreadKeyCreate key destructor t = (-1, t) := dif_pos h

theorem create_of_lt (key destructor : Addr) (h : t.pthreadKeyNext < 128) :
    (pthreadKeyCreate key destructor t).1 = 0 ∧
    (pthreadKeyCreate key destructor t).2.pthreadKeyNext = t.pthreadKeyNext + 1 ∧
    loadU32 (pthreadKeyCreate key destructor t).2.mem key = BitVec.ofNat 32 t.pthreadKeyNext := by
  simp only [pthreadKeyCreate, dif_neg (Nat.not_le.2 h), loadU32_storeLE, and_self]

theorem getspecific_create (key destructor : Addr) :
    pthreadGetspecific k (pthreadKeyCreate key destructor t).2 =
      if k.toNat = t.pthreadKeyNext then 0 else pthreadGetspecific k t := by
  by_cases hn : 128 ≤ t.pthreadKeyNext
  · rw [create_of_full key destructor hn]
    have := t.next_le
    split_ifs with hk
    · simp [pthreadGetspecific, hk, hn]
    · rfl
  · simp only [pthreadKeyCreate, dif_neg hn, pthreadGetspecific, Function.update_apply, Fin.ext_iff]
    split_ifs <;> rfl

theorem delete_next (key : BitVec 32) :
    (pthreadKeyDelete key t).2.pthreadKeyNext = t.pthreadKeyNext := by
  unfold pthreadKeyDelete; split_ifs <;> rfl

theorem getspecific_delete (key : BitVec 32) :
    pthreadGetspecific k (pthreadKeyDelete key t).2 = pthreadGetspecific k t := by
  unfold pthreadKeyDelete
  split_ifs with h
  · rfl
  · simp only [pthreadGetspecific]
    split_ifs with hk
    · rfl
    · rw [Function.update_apply]; split_ifs with he <;> simp [he]

theorem set_next (key : BitVec 32) (value : Addr) :
    (pthreadSetspecific key value t).2.pthreadKeyNext = t.pthreadKeyNext := by
  unfold pthreadSetspecific; split_ifs <;> rfl

theorem getspecific_set (key : BitVec 32) (value : Addr) :
    pthreadGetspecific k (pthreadSetspecific key value t).2 =
      if k = key ∧ key.toNat < 128 then value else pthreadGetspecific k t := by
  unfold pthreadSetspecific
  split_ifs with h h' h'
  · omega
  · rfl
  · obtain ⟨rfl, hk⟩ := h'
    simp only [pthreadGetspecific, dif_neg (Nat.not_le.2 hk), Function.update_same]
  · simp only [pthreadGetspecific]
    split_ifs with hk
    · rfl
    · rw [Function.update_noteq]
      simp only [ne_eq, Fin.ext_iff]
      intro he
      exact h' ⟨BitVec.eq_of_toNat_eq he, by omega⟩

theorem set_status (key : BitVec 32) (value : Addr) :
    (pthreadSetspecific key value t).1 = if key.toNat < 128 then 0 else -1 := by
  unfold pthreadSetspecific
  split_ifs <;> first | rfl | omega

namespace KeyCall

def Writes : KeyCall → Addr → Prop
  | .keyCreate key _, a => Touches key 4 a
  | .keyDelete _, _ | .getspecific _, _ | .setspecific _ _, _ => False

theorem exec_mem_frame (c : KeyCall) (t : KeyTable) (a : Addr) : (c.exec t).2.mem a = t.mem a ∨ c.Writes a := by
  cases c with
  | keyCreate key destructor =>
    by_cases ha : Touches key 4 a
    · exact .inr ha
    · refine .inl ?_
      simp only [exec, pthreadKeyCreate]
      split_ifs
      · rfl
      · exact storeLE_outside _ _ _ ha
  | keyDelete key => exact .inl (by simp only [exec, pthreadKeyDelete]; split_ifs <;> rfl)
  | getspecific _ => exact .inl rfl
  | setspecific key value => exact .inl (by simp only [exec, pthreadSetspecific]; split_ifs <;> rfl)

def KeysIssued (acc : List (KeyCall × Obs) × KeyTable) : Prop :=
  createdKeys acc.1 = (List.range acc.2.pthreadKeyNext).map (BitVec.ofNat 32)

def Agrees (acc : List (KeyCall × Obs) × KeyTable) : Prop :=
  ∀ k v, expected acc.1 k = some v → k.toNat < acc.2.pthreadKeyNext ∧ pthreadGetspecific k acc.2 = v

theorem expected_append (h : List (KeyCall × Obs)) (x : KeyCall × Obs) :
    expected (h ++ [x]) = expect (expected h) x := by
  simp [expected, List.foldl_append]

theorem step_keysIssued (acc : List (KeyCall × Obs) × KeyTable) (c : KeyCall)
    (h : KeysIssued acc) : KeysIssued (step acc c) := by
  simp only [KeysIssued, step, createdKeys, List.filterMap_append] at h ⊢
  rw [h]
  cases c with
  | keyCreate key d =>
    by_cases hn : 128 ≤ acc.2.pthreadKeyNext
    · simp [exec, create_of_full key d hn, createdKey]
    · obtain ⟨h1, h2, h3⟩ := @create_of_lt acc.2 key d (Nat.lt_of_not_le hn)
      simp [exec, h1, h2, h3, createdKey, List.range_succ]
  | keyDelete k => simp [exec, createdKey, delete_next]
  | getspecific k => simp [exec, createdKey]
  | setspecific k v => simp [exec, createdKey, set_next]

theorem step_agrees (acc : List (KeyCall × Obs) × KeyTable) (c : KeyCall) (h : Agrees acc) :
    Agrees (step acc c) := by
  intro k v hk
  have hle := acc.2.next_le
  simp only [step, expected_append] at hk ⊢
  cases c with
  | keyCreate key d =>
    by_cases hn : 128 ≤ acc.2.pthreadKeyNext
    · simp only [exec, create_of_full key d hn, expect, if_neg (by decide : (-1 : Int) ≠ 0)] at hk ⊢
      exact h k v hk
    · obtain ⟨h1, h2, h3⟩ := @create_of_lt acc.2 key d (Nat.lt_of_not_le hn)
      simp only [exec, h1, h3, expect, if_true] at hk ⊢
      rw [h2, getspecific_create]
      by_cases hkn : k = BitVec.ofNat 32 acc.2.pthreadKeyNext
      · rw [hkn, Function.update_same] at hk
        cases hk
        have : k.toNat = acc.2.pthreadKeyNext := by
          rw [hkn, BitVec.toNat_ofNat]; exact Nat.mod_eq_of_lt (by omega)
        simp [this]
      · rw [Function.update_noteq hkn] at hk
        obtain ⟨hlt, hget⟩ := h k v hk
        exact ⟨by omega, by rw [if_neg (by omega), hget]⟩
  | keyDelete key =>
    simp only [exec, expect] at hk ⊢
    by_cases hkk : k = key
    · rw [hkk, Function.update_same] at hk
      cases hk
    · rw [Function.update_noteq hkk] at hk
      obtain ⟨hlt, hget⟩ := h k v hk
      exact ⟨by rw [delete_next]; exact hlt, by rw [getspecific_delete, hget]⟩
  | getspecific key => exact h k v hk
  | setspecific key value =>
    simp only [exec, expect, set_status] at hk ⊢
    rw [set_next, getspecific_set]
    by_cases hkey : key.toNat < 128
    · simp only [if_pos hkey, true_and] at hk
      by_cases hs : (expected acc.1 key).isSome
      · rw [if_pos hs] at hk
        by_cases hkk : k = key
        · rw [hkk, Function.update_same] at hk
          cases hk
          obtain ⟨w, hw⟩ := Option.isSome_iff_exists.1 hs
          exact ⟨by rw [hkk]; exact (h key w hw).1, by simp [hkk, hkey]⟩
        · rw [Function.update_noteq hkk] at hk
          obtain ⟨hlt, hget⟩ := h k v hk
          exact ⟨hlt, by rw [if_neg (fun e => hkk e.1), hget]⟩
      · rw [if_neg hs] at hk
        obtain ⟨hlt, hget⟩ := h k v hk
        refine ⟨hlt, ?_⟩
        rw [if_neg (fun e => hs (by rw [← e.1, hk]; rfl)), hget]
    · simp only [if_neg hkey, (by decide : (-1 : Int) ≠ 0), false_and, if_false] at hk
      obtain ⟨hlt, hget⟩ := h k v hk
      exact ⟨hlt, by rw [if_neg (fun e => hkey e.2), hget]⟩

end KeyCall

theorem issued_keys_valid {n : Nat} (hn : n ≤ 128) :
    ((List.range n).map (BitVec.ofNat 32)).Nodup ∧
      ∀ k ∈ (List.range n).map (BitVec.ofNat 32), k.toNat < 128 := by
  have htoNat : ∀ x < n, (BitVec.ofNat 32 x).toNat = x := fun x hx => by
    rw [BitVec.toNat_ofNat, Nat.mod_eq_of_lt (by omega)]
  refine ⟨List.Nodup.map_on (fun x hx y hy e => ?_) (List.nodup_range _), ?_⟩
  · rw [List.mem_range] at hx hy
    rw [← htoNat x hx, ← htoNat y hy, e]
  · simp only [List.mem_map, List.mem_range]
    rintro _ ⟨x, hx, rfl⟩
    rw [htoNat x hx]
    omega

theorem key_table_laws :
    (∀ (cs : List KeyCall) (m : Mem),
      (createdKeys (KeyCall.run cs (KeyTable.init m)).1).Nodup ∧
      ∀ k ∈ createdKeys (KeyCall.run cs (KeyTable.init m)).1, k.toNat < 128) ∧
    (∀ (key destructor : Addr) (t : KeyTable),
      (pthreadKeyCreate key destructor t).1 = -1 → (pthreadKeyCreate key destructor t).2 = t) ∧
    (∀ (key : BitVec 32) (value : Addr) (t : KeyTable), 128 ≤ key.toNat →
      pthreadSetspecific key value t = (-1, t) ∧ (KeyCall.getspecific key).exec t = (.value 0, t)) ∧
    ∀ (cs : List KeyCall) (m : Mem) (k : BitVec 32) (v : Addr),
      expected (KeyCall.run cs (KeyTable.init m)).1 k = some v →
      pthreadGetspecific k (KeyCall.run cs (KeyTable.init m)).2 = v := by
  refine ⟨fun cs m => ?_, fun key d t hr => ?_, fun key value t hk => ?_, fun cs m k v hk => ?_⟩
  · have hi : KeyCall.KeysIssued (KeyCall.run cs (KeyTable.init m)) :=
      List.foldlRecOn (motive := KeyCall.KeysIssued) cs KeyCall.step _ rfl fun acc h c _ => KeyCall.step_keysIssued acc c h
    rw [KeyCall.KeysIssued] at hi
    rw [hi]
    exact issued_keys_valid (KeyCall.run cs (KeyTable.init m)).2.next_le
  · by_cases hn : 128 ≤ t.pthreadKeyNext
    · rw [create_of_full key d hn]
    · rw [(create_of_lt key d (Nat.lt_of_not_le hn)).1] at hr
      cases hr
  · exact ⟨dif_pos hk, by simp [KeyCall.exec, pthreadGetspecific, hk]⟩
  · exact (List.foldlRecOn (motive := KeyCall.Agrees) cs KeyCall.step ([], KeyTable.init m) (fun _ _ h => nomatch h)
      (fun acc h c _ => KeyCall.step_agrees acc c h) k v hk).2

theorem keys_issued_in_order (cs : List KeyCall) (m : Mem) :
    createdKeys (KeyCall.run cs (KeyTable.init m)).1 =
      (List.range (KeyCall.run cs (KeyTable.init m)).2.pthreadKeyNext).map (BitVec.ofNat 32) ∧
    (KeyCall.run cs (KeyTable.init m)).2.pthreadKeyNext ≤ 128 :=
  ⟨List.foldlRecOn (motive := KeyCall.KeysIssued) cs KeyCall.step _ rfl fun acc h c _ => KeyCall.step_keysIssued acc c h,
    (KeyCall.run cs (KeyTable.init m)).2.next_le⟩

def KeyCall.isCreate : KeyCall → Bool
  | .keyCreate _ _ => true
  | _ => false

def createStatus : KeyCall × Obs → Option Int
  | (.keyCreate _ _, .created r _) => some r
  | _ => none

namespace KeyCall

def Exhaustion (acc : List (KeyCall × Obs) × KeyTable) : Prop :=
  acc.2.pthreadKeyNext = min 128 ((acc.1.map Prod.fst).countP isCreate) ∧
  (∀ e ∈ acc.1, createStatus e = some (-1) → acc.2.pthreadKeyNext = 128) ∧
  acc.1.Pairwise fun e e' => createStatus e = some (-1) → (createStatus e').isSome → createStatus e' = some (-1)

theorem step_cases (acc : List (KeyCall × Obs) × KeyTable) (c : KeyCall) :
    (c.isCreate = false ∧ createStatus (c, (c.exec acc.2).1) = none ∧
      (c.exec acc.2).2.pthreadKeyNext = acc.2.pthreadKeyNext) ∨
    (c.isCreate = true ∧ 128 ≤ acc.2.pthreadKeyNext ∧ createStatus (c, (c.exec acc.2).1) = some (-1) ∧
      (c.exec acc.2).2.pthreadKeyNext = acc.2.pthreadKeyNext) ∨
    (c.isCreate = true ∧ acc.2.pthreadKeyNext < 128 ∧ createStatus (c, (c.exec acc.2).1) = some 0 ∧
      (c.exec acc.2).2.pthreadKeyNext = acc.2.pthreadKeyNext + 1) := by
  cases c with
  | keyCreate key d =>
    by_cases hn : 128 ≤ acc.2.pthreadKeyNext
    · exact .inr (.inl ⟨rfl, hn, by simp [exec, create_of_full key d hn, createStatus],
        by simp [exec, create_of_full key d hn]⟩)
    · obtain ⟨h1, h2, -⟩ := @create_of_lt acc.2 key d (Nat.lt_of_not_le hn)
      exact .inr (.inr ⟨rfl, by omega, by simp [exec, h1, createStatus], h2⟩)
  | keyDelete key => exact .inl ⟨rfl, rfl, delete_next key⟩
  | getspecific key => exact .inl ⟨rfl, rfl, rfl⟩
  | setspecific key value => exact .inl ⟨rfl, rfl, set_next key value⟩

theorem step_exhaustion (acc : List (KeyCall × Obs) × KeyTable) (c : KeyCall) (h : Exhaustion acc) :
    Exhaustion (step acc c) := by
  obtain ⟨hn, hfail, hpw⟩ := h
  have hle := acc.2.next_le
  simp only [Exhaustion, step, List.map_append, List.countP_append, List.map_singleton, List.countP_cons,
    List.countP_nil, List.mem_append, List.mem_singleton, List.pairwise_append, List.pairwise_singleton, true_and]
  rcases step_cases acc c with ⟨hc, hs, hx⟩ | ⟨hc, hfull, hs, hx⟩ | ⟨hc, hlt, hs, hx⟩ <;>
    simp only [hc, hx, if_true, if_false, Bool.false_eq_true]
  · refine ⟨by omega, fun e he he1 => ?_, hpw, fun _ _ e' he' _ h1 => ?_⟩
    · rcases he with he | rfl
      · exact hfail e he he1
      · rw [hs] at he1; cases he1
    · rw [he', hs] at h1; cases h1
  · refine ⟨by omega, fun _ _ _ => by omega, hpw, fun _ _ e' he' _ _ => by rw [he', hs]⟩
  · refine ⟨by omega, fun e he he1 => ?_, hpw, fun e he _ _ he1 _ => absurd (hfail e he he1) (by omega)⟩
    rcases he with he | rfl
    · exact absurd (hfail e he he1) (by omega)
    · rw [hs] at he1; cases he1

theorem foldl_calls (cs : List KeyCall) :
    ∀ acc, (cs.foldl step acc).1.map Prod.fst = acc.1.map Prod.fst ++ cs := by
  induction cs with
  | nil => intro acc; simp
  | cons c cs ih => intro acc; simp [ih, step]

end KeyCall

theorem keys_never_recycled (cs : List KeyCall) (m : Mem) :
    (KeyCall.run cs (KeyTable.init m)).2.pthreadKeyNext = min 128 (cs.countP KeyCall.isCreate) ∧
    (KeyCall.run cs (KeyTable.init m)).1.Pairwise fun e e' =>
      createStatus e = some (-1) → (createStatus e').isSome → createStatus e' = some (-1) := by
  obtain ⟨hnext, -, hpw⟩ := List.foldlRecOn (motive := KeyCall.Exhaustion) cs KeyCall.step ([], KeyTable.init m)
    ⟨rfl, fun _ h => absurd h (List.not_mem_nil _), List.Pairwise.nil⟩ fun acc h c _ => KeyCall.step_exhaustion acc c h
  refine ⟨?_, hpw⟩
  rw [KeyCall.run, hnext, KeyCall.foldl_calls]
  rfl

end StubLibc.Tls
