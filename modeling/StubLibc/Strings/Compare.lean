import StubLibc.Machine
import Mathlib.Order.Basic

namespace StubLibc.Strings

def memcmpLoop (m : Mem) (s1 s2 : Addr) : Nat → Nat → Int
  | 0, _ => 0
  | k + 1, i =>
    if m (index s1 i) ≠ m (index s2 i) then (m (index s1 i)).toNat - (m (index s2 i)).toNat
    else memcmpLoop m s1 s2 k (i + 1)

def memcmp (s1 s2 : Addr) (n : BitVec 64) (m : Mem) : Int := memcmpLoop m s1 s2 n.toNat 0

def bytesFrom (m : Mem) (p : Addr) (i : Nat) : Nat → List Byte
  | 0 => []
  | k + 1 => m (index p i) :: bytesFrom m p (i + 1) k

def bytesAt (m : Mem) (p : Addr) (n : Nat) : List Byte := bytesFrom m p 0 n

def strlenLoop (m : Mem) (s : Addr) : Nat → BitVec 64 → Option (BitVec 64)
  | 0, _ => none
  | fuel + 1, len => if m (s + len) ≠ 0 then strlenLoop m s fuel (len + 1) else some len

def strlen (s : Addr) (m : Mem) : Option (BitVec 64) := strlenLoop m s (2 ^ 64) 0

variable {m : Mem} {s1 s2 : Addr}

theorem byte_cons_lt_cons {a b : Byte} {as bs : List Byte} :
    List.lt (a :: as) (b :: bs) ↔ a.toNat < b.toNat ∨ a = b ∧ List.lt as bs := by
  constructor
  · intro h
    cases h with
    | head _ _ h => exact .inl h
    | tail h1 h2 h =>
      rw [BitVec.lt_def] at h1 h2
      exact .inr ⟨BitVec.eq_of_toNat_eq (by omega), h⟩
  · rintro (h | ⟨rfl, h⟩)
    · exact List.lt.head _ _ h
    · exact List.lt.tail (Nat.lt_irrefl _) (Nat.lt_irrefl _) h

theorem memcmpLoop_eq_zero_iff (k i : Nat) :
    memcmpLoop m s1 s2 k i = 0 ↔ ∀ j < k, m (index s1 (i + j)) = m (index s2 (i + j)) := by
  induction k generalizing i with
  | zero => simp [memcmpLoop]
  | succ k ih =>
    simp only [memcmpLoop]
    split_ifs with h
    · have : (m (index s1 i)).toNat ≠ (m (index s2 i)).toNat := fun e => h (BitVec.eq_of_toNat_eq e)
      exact ⟨fun e => absurd e (by omega), fun e => absurd (e 0 (by omega)) h⟩
    · rw [ih (i + 1)]
      constructor
      · intro e j hj
        rcases j with _ | j
        · exact not_not.1 h
        · simpa [Nat.add_assoc, Nat.add_comm 1] using e j (by omega)
      · intro e j hj
        simpa [Nat.add_assoc, Nat.add_comm 1] using e (j + 1) (by omega)

theorem memcmpLoop_first_diff (k i : Nat) (h : memcmpLoop m s1 s2 k i ≠ 0) :
    ∃ t < k, (∀ j < t, m (index s1 (i + j)) = m (index s2 (i + j))) ∧
      m (index s1 (i + t)) ≠ m (index s2 (i + t)) ∧
      memcmpLoop m s1 s2 k i = (m (index s1 (i + t))).toNat - (m (index s2 (i + t))).toNat := by
  induction k generalizing i with
  | zero => exact absurd rfl h
  | succ k ih =>
    simp only [memcmpLoop] at h ⊢
    split_ifs at h ⊢ with hi
    · exact ⟨0, by omega, fun j hj => absurd hj (Nat.not_lt_zero j), hi, rfl⟩
    · obtain ⟨t, ht, hpre, hne, hval⟩ := ih (i + 1) h
      refine ⟨t + 1, by omega, fun j hj => ?_, ?_, ?_⟩
      · rcases j with _ | j
        · exact not_not.1 hi
        · simpa [Nat.add_assoc, Nat.add_comm 1] using hpre j (by omega)
      · simpa [Nat.add_assoc, Nat.add_comm 1] using hne
      · simpa [Nat.add_assoc, Nat.add_comm 1] using hval

theorem memcmpLoop_neg_iff (k i : Nat) :
    memcmpLoop m s1 s2 k i < 0 ↔ List.lt (bytesFrom m s1 i k) (bytesFrom m s2 i k) := by
  induction k generalizing i with
  | zero => exact ⟨fun h => absurd h (lt_irrefl 0), fun h => nomatch h⟩
  | succ k ih =>
    simp only [memcmpLoop, bytesFrom, byte_cons_lt_cons]
    split_ifs with h
    · have : (m (index s1 i)).toNat ≠ (m (index s2 i)).toNat := fun e => h (BitVec.eq_of_toNat_eq e)
      constructor
      · intro hl; exact .inl (by omega)
      · rintro (hl | ⟨he, _⟩)
        · omega
        · exact absurd he h
    · rw [ih (i + 1), not_not.1 h]
      simp

theorem memcmpLoop_antisymm (k i : Nat) : memcmpLoop m s1 s2 k i = -memcmpLoop m s2 s1 k i := by
  induction k generalizing i with
  | zero => rfl
  | succ k ih =>
    simp only [memcmpLoop, @ne_comm _ (m (index s2 i)) (m (index s1 i))]
    split_ifs
    · omega
    · exact ih (i + 1)

theorem memcmp_lex (m : Mem) (p1 p2 : Addr) (n : BitVec 64) :
    (memcmp p1 p2 n m = 0 ↔ ∀ i < n.toNat, m (index p1 i) = m (index p2 i)) ∧
    (memcmp p1 p2 n m < 0 ↔ List.lt (bytesAt m p1 n.toNat) (bytesAt m p2 n.toNat)) ∧
    (0 < memcmp p1 p2 n m ↔ List.lt (bytesAt m p2 n.toNat) (bytesAt m p1 n.toNat)) ∧
    (memcmp p1 p2 n m ≠ 0 → ∃ i < n.toNat, (∀ j < i, m (index p1 j) = m (index p2 j)) ∧
      m (index p1 i) ≠ m (index p2 i) ∧
      memcmp p1 p2 n m = (m (index p1 i)).toNat - (m (index p2 i)).toNat) ∧
    memcmp p1 p2 n m = -memcmp p2 p1 n m := by
  have hanti := @memcmpLoop_antisymm m p1 p2 n.toNat 0
  refine ⟨by simpa using memcmpLoop_eq_zero_iff n.toNat 0, memcmpLoop_neg_iff n.toNat 0, ?_,
    fun h => by simpa using memcmpLoop_first_diff n.toNat 0 h, hanti⟩
  simp only [memcmp, bytesAt]
  rw [← memcmpLoop_neg_iff, hanti]
  omega

theorem memcmpLoop_range (k i : Nat) : -255 ≤ memcmpLoop m s1 s2 k i ∧ memcmpLoop m s1 s2 k i ≤ 255 := by
  induction k generalizing i with
  | zero => simp [memcmpLoop]
  | succ k ih =>
    rw [memcmpLoop]
    split_ifs
    · have h1 : (m (index s1 i)).toNat < 256 := (m (index s1 i)).isLt
      have h2 : (m (index s2 i)).toNat < 256 := (m (index s2 i)).isLt
      omega
    · exact ih (i + 1)

theorem memcmp_range (m : Mem) (p1 p2 : Addr) (n : BitVec 64) :
    -255 ≤ memcmp p1 p2 n m ∧ memcmp p1 p2 n m ≤ 255 :=
  memcmpLoop_range n.toNat 0

theorem strlenLoop_skip (s : Addr) (f : Nat) :
    ∀ k i, (∀ t < k, m (index s (i + t)) ≠ 0) →
      strlenLoop m s (f + k) (BitVec.ofNat 64 i) = strlenLoop m s f (BitVec.ofNat 64 (i + k)) := by
  intro k
  induction k with
  | zero => intro i _; rfl
  | succ k ih =>
    intro i h
    rw [← Nat.add_assoc, strlenLoop, if_pos (by simpa [index] using h 0 (by omega)),
      show BitVec.ofNat 64 i + 1 = BitVec.ofNat 64 (i + 1) by simp [BitVec.ofNat_add],
      ih (i + 1) (fun t ht => by simpa [Nat.add_assoc, Nat.add_comm 1] using h (t + 1) (by omega)),
      Nat.add_assoc, Nat.add_comm 1 k]

theorem strlen_of_first_zero (s : Addr) {j : Nat} (hj : j < 2 ^ 64) (hz : m (index s j) = 0)
    (hpre : ∀ t < j, m (index s t) ≠ 0) : strlen s m = some (BitVec.ofNat 64 j) := by
  have h := @strlenLoop_skip m s (2 ^ 64 - j - 1 + 1) j 0 (by simpa using hpre)
  rw [show 2 ^ 64 - j - 1 + 1 + j = 2 ^ 64 by omega, Nat.zero_add, strlenLoop,
    if_neg (by simpa [index] using hz)] at h
  exact h

theorem strlen_first_zero (m : Mem) (s : Addr) (j : Nat) (hj : j < 2 ^ 64) (hz : m (index s j) = 0) :
    ∃ j₀ ≤ j, m (index s j₀) = 0 ∧ (∀ t < j₀, m (index s t) ≠ 0) ∧
      strlen s m = some (BitVec.ofNat 64 j₀) ∧
      ∀ m' : Mem, (∀ t ≤ j₀, m' (index s t) = m (index s t)) →
        strlen s m' = some (BitVec.ofNat 64 j₀) := by
  have hex : ∃ t, m (index s t) = 0 := ⟨j, hz⟩
  refine ⟨Nat.find hex, Nat.find_min' hex hz, Nat.find_spec hex,
    fun t ht => Nat.find_min hex ht, ?_, fun m' hm' => ?_⟩
  · exact strlen_of_first_zero s (by have := Nat.find_min' hex hz; omega) (Nat.find_spec hex)
      (fun t ht => Nat.find_min hex ht)
  · refine strlen_of_first_zero s (by have := Nat.find_min' hex hz; omega) ?_ (fun t ht => ?_)
    · rw [hm' _ le_rfl]; exact Nat.find_spec hex
    · rw [hm' t (le_of_lt ht)]; exact Nat.find_min hex ht

theorem strlen_first_zero_at_three :
    3 < 2 ^ 64 ∧ (fun a : Addr => if a = 0x2003#64 then 0#8 else 1#8) (index 0x2000#64 3) = 0 ∧
    ∃ j₀ ≤ 3, (fun a : Addr => if a = 0x2003#64 then 0#8 else 1#8) (index 0x2000#64 j₀) = 0 ∧
      (∀ t < j₀, (fun a : Addr => if a = 0x2003#64 then 0#8 else 1#8) (index 0x2000#64 t) ≠ 0) ∧
      strlen 0x2000#64 (fun a => if a = 0x2003#64 then 0#8 else 1#8) = some (BitVec.ofNat 64 j₀) ∧
      ∀ m' : Mem, (∀ t ≤ j₀, m' (index 0x2000#64 t) =
          (fun a : Addr => if a = 0x2003#64 then 0#8 else 1#8) (index 0x2000#64 t)) →
        strlen 0x2000#64 m' = some (BitVec.ofNat 64 j₀) :=
  ⟨by decide, by decide,
    strlen_first_zero (fun a => if a = 0x2003#64 then 0#8 else 1#8) 0x2000#64 3 (by decide) (by decide)⟩

theorem strlen_eq_none_iff (m : Mem) (s : Addr) :
    strlen s m = none ↔ ∀ t < 2 ^ 64, m (index s t) ≠ 0 := by
  constructor
  · intro h t ht hz
    have hex : ∃ t, m (index s t) = 0 := ⟨t, hz⟩
    have hs := strlen_of_first_zero s (lt_of_le_of_lt (Nat.find_min' hex hz) ht) (Nat.find_spec hex)
      (fun t ht => Nat.find_min hex ht)
    rw [h] at hs
    exact Option.noConfusion hs
  · intro h
    have hs := @strlenLoop_skip m s 0 (2 ^ 64) 0 (by simpa using h)
    rw [Nat.zero_add] at hs
    exact hs.trans rfl

end StubLibc.Strings
