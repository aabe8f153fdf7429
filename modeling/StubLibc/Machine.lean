import Mathlib.Data.BitVec
import Mathlib.Logic.Function.Basic

namespace StubLibc

abbrev Addr := BitVec 64

abbrev Byte := BitVec 8

abbrev Mem := Addr → Byte

def index (p : Addr) (i : Nat) : Addr := p + BitVec.ofNat 64 i

def InRegion (p : Addr) (n : Nat) (a : Addr) : Prop := p.toNat ≤ a.toNat ∧ a.toNat < p.toNat + n

instance (p : Addr) (n : Nat) : DecidablePred (InRegion p n) :=
  fun a => inferInstanceAs (Decidable (p.toNat ≤ a.toNat ∧ a.toNat < p.toNat + n))

@[simp] theorem index_zero (p : Addr) : index p 0 = p := by simp [index]

theorem index_index (p : Addr) (i j : Nat) : index (index p i) j = index p (i + j) := by
  simp only [index, BitVec.ofNat_add, BitVec.add_assoc]

theorem index_toNat {p : Addr} {i : Nat} (h : p.toNat + i < 2 ^ 64) :
    (index p i).toNat = p.toNat + i := by
  simp only [index, BitVec.toNat_add, BitVec.toNat_ofNat]
  rw [Nat.mod_eq_of_lt (by omega : i < 2 ^ 64), Nat.mod_eq_of_lt h]

theorem index_sub_self (a : Addr) {k : Nat} (hk : k < 2 ^ 64) : (index a k - a).toNat = k := by
  simp only [index]
  bv_omega

theorem inRegion_index {p : Addr} {n i : Nat} (h : p.toNat + n ≤ 2 ^ 64) (hi : i < n) :
    InRegion p n (index p i) := by
  simp only [InRegion, index_toNat (by omega : p.toNat + i < 2 ^ 64)]
  omega

def Touches (p : Addr) (n : Nat) (a : Addr) : Prop := (a - p).toNat < n

instance (p : Addr) (n : Nat) : DecidablePred (Touches p n) :=
  fun a => inferInstanceAs (Decidable ((a - p).toNat < n))

theorem touches_index (p : Addr) {i n : Nat} (hi : i < n) : Touches p n (index p i) := by
  simp only [Touches, index, BitVec.add_comm p, BitVec.add_sub_cancel, BitVec.toNat_ofNat]
  exact lt_of_le_of_lt (Nat.mod_le _ _) hi

def storeLE {w : Nat} (m : Mem) (a : Addr) (v : BitVec w) : Mem := fun x =>
  if (x - a).toNat < w / 8 then v.extractLsb' (8 * (x - a).toNat) 8 else m x

def loadLE (m : Mem) (a : Addr) : Nat → Nat
  | 0 => 0
  | k + 1 => (m a).toNat + 2 ^ 8 * loadLE m (index a 1) k

def loadU32 (m : Mem) (a : Addr) : BitVec 32 := BitVec.ofNat 32 (loadLE m a 4)

def loadU64 (m : Mem) (a : Addr) : BitVec 64 := BitVec.ofNat 64 (loadLE m a 8)

theorem storeLE_index {w : Nat} (m : Mem) (a : Addr) (v : BitVec w) {j : Nat}
    (hj : j < w / 8) (hj' : j < 2 ^ 64) :
    storeLE m a v (index a j) = v.extractLsb' (8 * j) 8 := by
  simp only [storeLE, index_sub_self a hj', if_pos hj]

theorem storeLE_outside {w : Nat} (m : Mem) (a : Addr) (v : BitVec w) {x : Addr} (hx : ¬Touches a (w / 8) x) :
    storeLE m a v x = m x :=
  if_neg hx

theorem loadLE_congr {m m' : Mem} {a : Addr} {k : Nat} (h : ∀ t < k, m (index a t) = m' (index a t)) :
    loadLE m a k = loadLE m' a k := by
  induction k generalizing a with
  | zero => rfl
  | succ k ih =>
    have h0 := h 0 (Nat.succ_pos k)
    rw [index_zero] at h0
    have h1 : ∀ t < k, m (index (index a 1) t) = m' (index (index a 1) t) := fun t ht => by
      rw [index_index]; exact h (1 + t) (by omega)
    rw [loadLE, loadLE, h0, ih h1]

theorem loadLE_storeLE {w : Nat} (m : Mem) (a : Addr) (v : BitVec w) (hw : w / 8 < 2 ^ 64) :
    ∀ k o, o + k ≤ w / 8 →
      loadLE (storeLE m a v) (index a o) k = v.toNat / 2 ^ (8 * o) % 2 ^ (8 * k) := by
  intro k
  induction k with
  | zero => intro o _; simp [loadLE, Nat.mod_one]
  | succ k ih =>
    intro o hok
    have hdiv : v.toNat / 2 ^ (8 * (o + 1)) = v.toNat / 2 ^ (8 * o) / 2 ^ 8 := by
      rw [Nat.div_div_eq_div_mul, ← Nat.pow_add, Nat.mul_succ]
    rw [loadLE, index_index, ih (o + 1) (by omega), storeLE_index m a v (by omega) (by omega),
      BitVec.extractLsb'_toNat, Nat.shiftRight_eq_div_pow, hdiv,
      show 8 * (k + 1) = 8 + 8 * k by omega, Nat.pow_add, Nat.mod_mul]

theorem loadU32_storeLE (m : Mem) (a : Addr) (v : BitVec 32) : loadU32 (storeLE m a v) a = v := by
  have h := loadLE_storeLE m a v (by decide) 4 0 (by decide)
  rw [index_zero] at h
  rw [loadU32, h, BitVec.toNat_eq, BitVec.toNat_ofNat]
  simp [Nat.mod_eq_of_lt v.isLt]

theorem loadU64_storeLE (m : Mem) (a : Addr) (v : BitVec 64) : loadU64 (storeLE m a v) a = v := by
  have h := loadLE_storeLE m a v (by decide) 8 0 (by decide)
  rw [index_zero] at h
  rw [loadU64, h, BitVec.toNat_eq, BitVec.toNat_ofNat]
  simp [Nat.mod_eq_of_lt v.isLt]

end StubLibc
