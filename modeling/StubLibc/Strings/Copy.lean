import StubLibc.Machine

namespace StubLibc.Strings

def forLoop (p : Addr) (val : Nat → Mem → Byte) (m : Mem) : Nat → Mem
  | 0 => m
  | i + 1 => Function.update (forLoop p val m i) (index p i) (val i (forLoop p val m i))

def copyForward (d s : Addr) (m : Mem) : Nat → Mem := forLoop d (fun i m => m (index s i)) m

def fill (p : Addr) (v : Byte) (m : Mem) : Nat → Mem := forLoop p (fun _ _ => v) m

def copyBackward (d s : Addr) : Nat → Mem → Mem
  | 0, m => m
  | i + 1, m => copyBackward d s i (Function.update m (index d i) (m (index s i)))

def memcpy (dest src : Addr) (n : BitVec 64) (m : Mem) : Addr × Mem :=
  (dest, copyForward dest src m n.toNat)

def memset (s : Addr) (c : Int) (n : BitVec 64) (m : Mem) : Addr × Mem :=
  (s, fill s (BitVec.ofInt 8 c) m n.toNat)

def memmove (dest src : Addr) (n : BitVec 64) (m : Mem) : Addr × Mem :=
  (dest, if dest < src then copyForward dest src m n.toNat else copyBackward dest src n.toNat m)

@[simp] theorem memcpy_fst (dest src : Addr) (n : BitVec 64) (m : Mem) : (memcpy dest src n m).1 = dest := rfl

def moved (d s : Addr) (lo hi : Nat) (m : Mem) : Mem := fun a =>
  if d.toNat + lo ≤ a.toNat ∧ a.toNat < d.toNat + hi then m (index s (a.toNat - d.toNat)) else m a

variable {d s : Addr} {m : Mem}

theorem index_eq_iff_toNat {p a : Addr} {k : Nat} (hk : p.toNat + k < 2 ^ 64) :
    a = index p k ↔ a.toNat = p.toNat + k := by
  rw [BitVec.toNat_eq, index_toNat hk]

theorem moved_empty (d s : Addr) (k : Nat) (m : Mem) : moved d s k k m = m := by
  funext a
  simp only [moved]
  rw [if_neg (by omega)]

theorem moved_source {lo hi k : Nat} (hs : s.toNat + k < 2 ^ 64)
    (h : ¬(d.toNat + lo ≤ s.toNat + k ∧ s.toNat + k < d.toNat + hi)) :
    moved d s lo hi m (index s k) = m (index s k) := by
  simp only [moved, index_toNat hs, if_neg h]

theorem moved_index {lo hi k : Nat} (hd : d.toNat + k < 2 ^ 64) (hlo : lo ≤ k) (hhi : k < hi) :
    moved d s lo hi m (index d k) = m (index s k) := by
  simp only [moved, index_toNat hd, Nat.add_sub_cancel_left]
  rw [if_pos ⟨by omega, by omega⟩]

theorem moved_update_hi {lo hi : Nat} (hd : d.toNat + hi < 2 ^ 64) (hle : lo ≤ hi) :
    Function.update (moved d s lo hi m) (index d hi) (m (index s hi)) = moved d s lo (hi + 1) m := by
  funext a
  by_cases ha : a = index d hi
  · subst ha
    rw [Function.update_same, moved_index hd hle (by omega)]
  · have : a.toNat ≠ d.toNat + hi := fun h => ha ((index_eq_iff_toNat hd).2 h)
    simp only [Function.update_noteq ha, moved]
    split_ifs <;> first | rfl | omega

theorem moved_update_lo {lo hi : Nat} (hd : d.toNat + lo < 2 ^ 64) (hlt : lo < hi) :
    Function.update (moved d s (lo + 1) hi m) (index d lo) (m (index s lo)) = moved d s lo hi m := by
  funext a
  by_cases ha : a = index d lo
  · subst ha
    rw [Function.update_same, moved_index hd le_rfl hlt]
  · have : a.toNat ≠ d.toNat + lo := fun h => ha ((index_eq_iff_toNat hd).2 h)
    simp only [Function.update_noteq ha, moved]
    split_ifs <;> first | rfl | omega

theorem copyForward_eq {i : Nat} (hd : d.toNat + i ≤ 2 ^ 64) (hs : s.toNat + i ≤ 2 ^ 64)
    (hov : d.toNat ≤ s.toNat ∨ s.toNat + i ≤ d.toNat) : copyForward d s m i = moved d s 0 i m := by
  induction i with
  | zero => exact (moved_empty d s 0 m).symm
  | succ i ih =>
    have ih := ih (by omega) (by omega) (by omega)
    change Function.update (copyForward d s m i) (index d i) (copyForward d s m i (index s i)) = _
    rw [ih, moved_source (by omega) (by omega), moved_update_hi (by omega) (Nat.zero_le i)]

theorem copyBackward_moved {n : Nat} (hd : d.toNat + n ≤ 2 ^ 64) (hs : s.toNat + n ≤ 2 ^ 64)
    (hov : s.toNat ≤ d.toNat ∨ d.toNat + n ≤ s.toNat) :
    ∀ i ≤ n, copyBackward d s i (moved d s i n m) = moved d s 0 n m := by
  intro i
  induction i with
  | zero => intro _; rfl
  | succ i ih =>
    intro hi
    rw [copyBackward, moved_source (by omega) (by omega), moved_update_lo (by omega) (by omega)]
    exact ih (by omega)

theorem copyBackward_eq {n : Nat} (hd : d.toNat + n ≤ 2 ^ 64) (hs : s.toNat + n ≤ 2 ^ 64)
    (hov : s.toNat ≤ d.toNat ∨ d.toNat + n ≤ s.toNat) : copyBackward d s n m = moved d s 0 n m := by
  simpa only [moved_empty] using @copyBackward_moved d s m n hd hs hov n le_rfl

theorem memmove_eq_moved {n : BitVec 64} (hd : d.toNat + n.toNat ≤ 2 ^ 64)
    (hs : s.toNat + n.toNat ≤ 2 ^ 64) : memmove d s n m = (d, moved d s 0 n.toNat m) := by
  simp only [memmove]
  split_ifs with hlt
  · rw [copyForward_eq hd hs (Or.inl (le_of_lt (BitVec.lt_def.1 hlt)))]
  · rw [copyBackward_eq hd hs (Or.inl (by rw [BitVec.lt_def] at hlt; omega))]

theorem moved_outside {n : Nat} {a : Addr} (ha : ¬InRegion d n a) : moved d s 0 n m a = m a := by
  simp only [InRegion] at ha
  simp only [moved, Nat.add_zero, if_neg ha]

theorem forLoop_outside (p : Addr) (val : Nat → Mem → Byte) (m : Mem) {n : Nat} {a : Addr}
    (ha : ¬Touches p n a) : forLoop p val m n a = m a := by
  induction n with
  | zero => rfl
  | succ i ih =>
    rw [forLoop, Function.update_noteq (fun e : a = index p i => ha (e ▸ touches_index p (Nat.lt_succ_self i))),
      ih fun h => ha (Nat.lt_succ_of_lt h)]

theorem copyBackward_outside (d s : Addr) {n : Nat} {a : Addr} (ha : ¬Touches d n a) (m : Mem) :
    copyBackward d s n m a = m a := by
  induction n generalizing m with
  | zero => rfl
  | succ i ih =>
    rw [copyBackward, ih (fun h => ha (Nat.lt_succ_of_lt h)),
      Function.update_noteq (fun e : a = index d i => ha (e ▸ touches_index d (Nat.lt_succ_self i)))]

theorem memmove_outside (dest src : Addr) (n : BitVec 64) (m : Mem) {a : Addr} (ha : ¬Touches dest n.toNat a) :
    (memmove dest src n m).2 a = m a := by
  unfold memmove
  split_ifs
  · exact forLoop_outside _ _ _ ha
  · exact copyBackward_outside _ _ ha _

theorem memmove_copies (m : Mem) (d s : Addr) (n : BitVec 64) (hd : d.toNat + n.toNat ≤ 2 ^ 64)
    (hs : s.toNat + n.toNat ≤ 2 ^ 64) :
    (∀ i < n.toNat, (memmove d s n m).2 (index d i) = m (index s i)) ∧
    ∀ a, ¬InRegion d n.toNat a → (memmove d s n m).2 a = m a := by
  rw [memmove_eq_moved hd hs]
  exact ⟨fun i hi => moved_index (by omega) (Nat.zero_le i) hi, fun a ha => moved_outside ha⟩

theorem memmove_copies_overlapping_up :
    (0x1004#64).toNat + (8#64).toNat ≤ 2 ^ 64 ∧ (0x1000#64).toNat + (8#64).toNat ≤ 2 ^ 64 ∧
    ((∀ i < (8#64).toNat, (memmove 0x1004#64 0x1000#64 8#64 (BitVec.setWidth 8)).2 (index 0x1004#64 i) =
        BitVec.setWidth 8 (index 0x1000#64 i)) ∧
      ∀ a, ¬InRegion 0x1004#64 (8#64).toNat a →
        (memmove 0x1004#64 0x1000#64 8#64 (BitVec.setWidth 8)).2 a = BitVec.setWidth 8 a) :=
  ⟨by decide, by decide, memmove_copies _ _ _ _ (by decide) (by decide)⟩

theorem memcpy_eq_memmove (m : Mem) (d s : Addr) (n : BitVec 64) (hd : d.toNat + n.toNat ≤ 2 ^ 64)
    (hs : s.toNat + n.toNat ≤ 2 ^ 64)
    (hov : d < s ∨ d.toNat + n.toNat ≤ s.toNat ∨ s.toNat + n.toNat ≤ d.toNat) :
    memcpy d s n m = memmove d s n m ∧
    (∀ i < n.toNat, (memcpy d s n m).2 (index d i) = m (index s i)) ∧
    ∀ a, ¬InRegion d n.toNat a → (memcpy d s n m).2 a = m a := by
  have hcpy : memcpy d s n m = (d, moved d s 0 n.toNat m) := by
    rw [BitVec.lt_def] at hov
    rw [memcpy, copyForward_eq hd hs (by omega)]
  rw [hcpy, memmove_eq_moved hd hs]
  exact ⟨rfl, fun i hi => moved_index (by omega) (Nat.zero_le i) hi, fun a ha => moved_outside ha⟩

theorem memcpy_eq_memmove_overlapping_down :
    (0x1000#64).toNat + (8#64).toNat ≤ 2 ^ 64 ∧ (0x1004#64).toNat + (8#64).toNat ≤ 2 ^ 64 ∧
    (0x1000#64 < 0x1004#64 ∨ (0x1000#64).toNat + (8#64).toNat ≤ (0x1004#64).toNat ∨
      (0x1004#64).toNat + (8#64).toNat ≤ (0x1000#64).toNat) ∧
    (memcpy 0x1000#64 0x1004#64 8#64 (BitVec.setWidth 8) =
        memmove 0x1000#64 0x1004#64 8#64 (BitVec.setWidth 8) ∧
      (∀ i < (8#64).toNat, (memcpy 0x1000#64 0x1004#64 8#64 (BitVec.setWidth 8)).2 (index 0x1000#64 i) =
        BitVec.setWidth 8 (index 0x1004#64 i)) ∧
      ∀ a, ¬InRegion 0x1000#64 (8#64).toNat a →
        (memcpy 0x1000#64 0x1004#64 8#64 (BitVec.setWidth 8)).2 a = BitVec.setWidth 8 a) :=
  ⟨by decide, by decide, .inl (by decide),
    memcpy_eq_memmove _ _ _ _ (by decide) (by decide) (.inl (by decide))⟩

theorem copyForward_overlap (p : Nat) {i : Nat} (hp : d.toNat = s.toNat + p) (hp0 : 0 < p)
    (hd : d.toNat + i ≤ 2 ^ 64) :
    copyForward d s m i = fun a => if InRegion d i a then m (index s ((a.toNat - d.toNat) % p)) else m a := by
  induction i with
  | zero =>
    funext a
    simp only [copyForward, forLoop, InRegion, Nat.add_zero]
    rw [if_neg (by omega)]
  | succ i ih =>
    funext a
    change Function.update (copyForward d s m i) (index d i) (copyForward d s m i (index s i)) a = _
    rw [ih (by omega)]
    by_cases ha : a = index d i
    · subst ha
      have hsi : (index s i).toNat = s.toNat + i := index_toNat (by omega)
      rw [Function.update_same, if_pos (inRegion_index hd (Nat.lt_succ_self i)), index_toNat (by omega),
        Nat.add_sub_cancel_left]
      simp only [InRegion, hsi]
      split_ifs with hin
      · have hmod : (i - p) % p = i % p := by rw [← Nat.add_mod_right, Nat.sub_add_cancel (by omega)]
        rw [← hmod, show s.toNat + i - d.toNat = i - p by omega]
      · rw [Nat.mod_eq_of_lt (by omega)]
    · have : a.toNat ≠ d.toNat + i := fun h => ha ((index_eq_iff_toNat (by omega)).2 h)
      simp only [Function.update_noteq ha, InRegion]
      split_ifs <;> first | rfl | omega

theorem memcpy_overlap_repeats (m : Mem) (d s : Addr) (n : BitVec 64) (hd : d.toNat + n.toNat ≤ 2 ^ 64)
    (hsd : s.toNat < d.toNat) :
    (∀ i < n.toNat, (memcpy d s n m).2 (index d i) = m (index s (i % (d.toNat - s.toNat)))) ∧
    ∀ a, ¬InRegion d n.toNat a → (memcpy d s n m).2 a = m a := by
  have h := @copyForward_overlap d s m (d.toNat - s.toNat) n.toNat (by omega) (by omega) hd
  refine ⟨fun i hi => ?_, fun a ha => ?_⟩
  · simp only [memcpy, h, if_pos (inRegion_index hd hi), index_toNat (by omega : d.toNat + i < 2 ^ 64),
      Nat.add_sub_cancel_left]
  · simp only [memcpy, h, if_neg ha]

theorem memcpy_overlap_repeats_by_two :
    (0x1002#64).toNat + (6#64).toNat ≤ 2 ^ 64 ∧ (0x1000#64).toNat < (0x1002#64).toNat ∧
    (∀ i < (6#64).toNat, (memcpy 0x1002#64 0x1000#64 6#64 (BitVec.setWidth 8)).2 (index 0x1002#64 i) =
      BitVec.setWidth 8 (index 0x1000#64 (i % ((0x1002#64).toNat - (0x1000#64).toNat)))) ∧
    ∀ a, ¬InRegion 0x1002#64 (6#64).toNat a →
      (memcpy 0x1002#64 0x1000#64 6#64 (BitVec.setWidth 8)).2 a = BitVec.setWidth 8 a :=
  ⟨by decide, by decide, memcpy_overlap_repeats _ _ _ _ (by decide) (by decide)⟩

theorem fill_eq (p : Addr) (v : Byte) (m : Mem) {n : Nat} (hp : p.toNat + n ≤ 2 ^ 64) :
    fill p v m n = fun a => if InRegion p n a then v else m a := by
  induction n with
  | zero =>
    funext a
    simp only [fill, forLoop, InRegion, Nat.add_zero]
    rw [if_neg (by omega)]
  | succ n ih =>
    funext a
    change Function.update (fill p v m n) (index p n) v a = _
    rw [ih (by omega)]
    by_cases ha : a = index p n
    · subst ha
      rw [Function.update_same, if_pos (inRegion_index hp (Nat.lt_succ_self n))]
    · have : a.toNat ≠ p.toNat + n := fun h => ha ((index_eq_iff_toNat (by omega)).2 h)
      simp only [Function.update_noteq ha, InRegion]
      split_ifs <;> first | rfl | omega

theorem memset_fills (m : Mem) (p : Addr) (c : Int) (n : BitVec 64) (hp : p.toNat + n.toNat ≤ 2 ^ 64) :
    (memset p c n m).1 = p ∧
      ∀ a, (memset p c n m).2 a = if InRegion p n.toNat a then BitVec.ofInt 8 c else m a :=
  ⟨rfl, fun a => by rw [memset, fill_eq _ _ _ hp]⟩

theorem memset_fills_wrapping_byte :
    (0x3000#64).toNat + (4#64).toNat ≤ 2 ^ 64 ∧
    (memset 0x3000#64 (-1) 4#64 (BitVec.setWidth 8)).1 = 0x3000#64 ∧
      ∀ a, (memset 0x3000#64 (-1) 4#64 (BitVec.setWidth 8)).2 a =
        if InRegion 0x3000#64 (4#64).toNat a then BitVec.ofInt 8 (-1) else BitVec.setWidth 8 a :=
  ⟨by decide, memset_fills _ _ _ _ (by decide)⟩

end StubLibc.Strings
