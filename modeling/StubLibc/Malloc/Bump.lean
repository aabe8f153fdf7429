import StubLibc.Strings.Copy

namespace StubLibc.Malloc

open Strings (fill)

def heapStart : Addr := 0x500000#64

def heapSize : Addr := 0x100000#64

def heapEnd : Addr := heapStart + heapSize

structure Heap where
  heapPtr : Addr
  mem : Mem

def Heap.init (m : Mem) : Heap := ⟨heapStart, m⟩

def malloc (size : BitVec 64) (h : Heap) : Addr × Heap :=
  let size := (size + 15) &&& ~~~15
  let newPtr := h.heapPtr + size
  if newPtr > heapEnd then (0, h) else (h.heapPtr, { h with heapPtr := newPtr })

def free (_ptr : Addr) (h : Heap) : Heap := h

def calloc (nmemb size : BitVec 64) (h : Heap) : Addr × Heap :=
  let total := nmemb * size
  let (ptr, h) := malloc total h
  if ptr ≠ 0 then (ptr, { h with mem := fill ptr 0 h.mem total.toNat }) else (ptr, h)

def realloc (ptr : Addr) (size : BitVec 64) (h : Heap) : Addr × Heap :=
  if ptr = 0 then malloc size h
  else
    let (newPtr, h) := malloc size h
    if newPtr = 0 then (0, h) else (newPtr, h)

def posixMemalign (memptr : Addr) (_alignment size : BitVec 64) (h : Heap) : Int × Heap :=
  let (p, h) := malloc size h
  let h := { h with mem := storeLE h.mem memptr p }
  (if loadU64 h.mem memptr = 0 then -1 else 0, h)

inductive HeapCall
  | malloc (size : BitVec 64)
  | free (ptr : Addr)
  | calloc (nmemb size : BitVec 64)
  | realloc (ptr : Addr) (size : BitVec 64)
  | posixMemalign (memptr : Addr) (alignment size : BitVec 64)
  deriving DecidableEq, Repr

namespace HeapCall

def exec : HeapCall → Heap → Addr × Heap
  | .malloc size, h => Malloc.malloc size h
  | .free ptr, h => (0, Malloc.free ptr h)
  | .calloc nmemb size, h => Malloc.calloc nmemb size h
  | .realloc ptr size, h => Malloc.realloc ptr size h
  | .posixMemalign memptr alignment size, h =>
    let h := (Malloc.posixMemalign memptr alignment size h).2
    (loadU64 h.mem memptr, h)

def request : HeapCall → Nat
  | .malloc size => size.toNat
  | .free _ => 0
  | .calloc nmemb size => nmemb.toNat * size.toNat
  | .realloc _ size => size.toNat
  | .posixMemalign _ _ size => size.toNat

def mallocSize : HeapCall → Option (BitVec 64)
  | .malloc size => some size
  | .free _ => none
  | .calloc nmemb size => some (nmemb * size)
  | .realloc _ size => some size
  | .posixMemalign _ _ size => some size

def step (acc : List (Addr × Nat) × Heap) (c : HeapCall) : List (Addr × Nat) × Heap :=
  (acc.1 ++ [((c.exec acc.2).1, c.request)], (c.exec acc.2).2)

def run (cs : List HeapCall) (h : Heap) : List (Addr × Nat) × Heap := cs.foldl step ([], h)

end HeapCall

theorem roundUp_toNat (x : BitVec 64) : (x &&& ~~~15).toNat = x.toNat / 16 * 16 := by
  have land : ∀ n : Nat, n < 2 ^ 64 → n &&& (2 ^ 64 - 16) = 2 ^ 4 * (n / 2 ^ 4) := by
    intro n hn
    apply Nat.eq_of_testBit_eq
    intro i
    rw [Nat.testBit_and, show (2 : Nat) ^ 64 - 16 = 2 ^ 4 * (2 ^ 60 - 1) from rfl,
      Nat.testBit_mul_pow_two, Nat.testBit_mul_pow_two, Nat.testBit_two_pow_sub_one,
      ← Nat.shiftRight_eq_div_pow, Nat.testBit_shiftRight]
    by_cases h4 : 4 ≤ i
    · by_cases h64 : i < 64
      · simp [h4, show i - 4 < 60 by omega, show 4 + (i - 4) = i by omega]
      · have : n.testBit i = false :=
          Nat.testBit_lt_two_pow (lt_of_lt_of_le hn (Nat.pow_le_pow_right (by decide) (by omega)))
        simp [this, show 4 + (i - 4) = i by omega]
    · simp [show ¬i ≥ 4 by omega]
  rw [BitVec.toNat_and, BitVec.toNat_not, show (15 : BitVec 64).toNat = 15 from rfl,
    show 2 ^ 64 - 1 - 15 = 2 ^ 64 - 16 from rfl, land x.toNat x.isLt]
  omega

theorem malloc_eq (size : BitVec 64) (h : Heap) :
    malloc size h =
      if heapEnd < h.heapPtr + ((size + 15) &&& ~~~15) then (0, h)
      else (h.heapPtr, { h with heapPtr := h.heapPtr + ((size + 15) &&& ~~~15) }) := rfl

theorem malloc_fst_cases (size : BitVec 64) (h : Heap) :
    (malloc size h).1 = 0 ∨ (malloc size h).1 = h.heapPtr := by
  rw [malloc_eq]
  split_ifs <;> simp

theorem malloc_heapPtr_cases (size : BitVec 64) (h : Heap) :
    (malloc size h).2.heapPtr = h.heapPtr ∨
      (malloc size h).2.heapPtr = h.heapPtr + ((size + 15) &&& ~~~15) := by
  rw [malloc_eq]
  split_ifs <;> simp

theorem realloc_eq_malloc (ptr : Addr) (size : BitVec 64) (h : Heap) :
    realloc ptr size h = malloc size h := by
  rcases e : malloc size h with ⟨q, h'⟩
  simp only [realloc, e]
  split_ifs with hp hq
  · rfl
  · rw [hq]
  · rfl

theorem calloc_fst (nmemb size : BitVec 64) (h : Heap) :
    (calloc nmemb size h).1 = (malloc (nmemb * size) h).1 := by
  simp only [calloc]
  split_ifs <;> rfl

theorem calloc_heapPtr (nmemb size : BitVec 64) (h : Heap) :
    (calloc nmemb size h).2.heapPtr = (malloc (nmemb * size) h).2.heapPtr := by
  simp only [calloc]
  split_ifs <;> rfl

theorem malloc_mem (size : BitVec 64) (h : Heap) : (malloc size h).2.mem = h.mem := by
  rw [malloc_eq]
  split_ifs <;> rfl

theorem realloc_fresh_block (ptr : Addr) (size : BitVec 64) (h : Heap) :
    realloc ptr size h = malloc size h ∧ (realloc ptr size h).2.mem = h.mem :=
  ⟨realloc_eq_malloc ptr size h, by rw [realloc_eq_malloc, malloc_mem]⟩

theorem posixMemalign_stores_pointer (memptr : Addr) (alignment alignment' size : BitVec 64) (h : Heap) :
    (posixMemalign memptr alignment size h).1 = (if (malloc size h).1 = 0 then -1 else 0) ∧
    loadU64 (posixMemalign memptr alignment size h).2.mem memptr = (malloc size h).1 ∧
    (posixMemalign memptr alignment size h).2.heapPtr = (malloc size h).2.heapPtr ∧
    (∀ a, 8 ≤ (a - memptr).toNat → (posixMemalign memptr alignment size h).2.mem a = h.mem a) ∧
    posixMemalign memptr alignment' size h = posixMemalign memptr alignment size h := by
  have hm := malloc_mem size h
  rcases e : malloc size h with ⟨p, h'⟩
  rw [e] at hm
  refine ⟨by simp [posixMemalign, e, loadU64_storeLE], by simp [posixMemalign, e, loadU64_storeLE],
    by simp [posixMemalign, e], fun a ha => ?_, rfl⟩
  simp only [posixMemalign, e, storeLE]
  rw [if_neg (by omega), ← hm]

namespace HeapCall

theorem exec_fst (c : HeapCall) (h : Heap) :
    (c.exec h).1 = (c.mallocSize.map fun n => (Malloc.malloc n h).1).getD 0 := by
  cases c <;> simp [exec, mallocSize, calloc_fst, realloc_eq_malloc, Malloc.posixMemalign,
    loadU64_storeLE]

theorem exec_heapPtr (c : HeapCall) (h : Heap) :
    (c.exec h).2.heapPtr = (c.mallocSize.map fun n => (Malloc.malloc n h).2.heapPtr).getD h.heapPtr := by
  cases c <;> simp [exec, mallocSize, calloc_heapPtr, realloc_eq_malloc, Malloc.posixMemalign, Malloc.free]

def Writes : HeapCall → Addr → Addr → Prop
  | .calloc nmemb size, p, a => p ≠ 0 ∧ Touches p (nmemb * size).toNat a
  | .posixMemalign memptr _ _, _, a => Touches memptr 8 a
  | .malloc _, _, _ | .free _, _, _ | .realloc _ _, _, _ => False

theorem exec_mem_frame (c : HeapCall) (h : Heap) (a : Addr) :
    (c.exec h).2.mem a = h.mem a ∨ c.Writes (c.exec h).1 a := by
  have hm (size : BitVec 64) : (Malloc.malloc size h).2.mem a = h.mem a := congrFun (malloc_mem size h) a
  cases c with
  | malloc size => exact .inl (hm size)
  | free _ => exact .inl rfl
  | realloc ptr size => exact .inl (by rw [exec, realloc_eq_malloc, hm])
  | calloc nmemb size =>
    have hs := hm (nmemb * size)
    rcases e : Malloc.malloc (nmemb * size) h with ⟨p, h'⟩
    rw [e] at hs
    simp only [exec, Malloc.calloc, e, Writes]
    split_ifs with hp
    · by_cases ha : Touches p (nmemb * size).toNat a
      · exact .inr ⟨hp, ha⟩
      · exact .inl (by rw [← hs]; exact Strings.forLoop_outside _ _ _ ha)
    · exact .inl hs
  | posixMemalign memptr alignment size =>
    by_cases ha : Touches memptr 8 a
    · exact .inr ha
    · exact .inl (by simp only [exec, Malloc.posixMemalign]; rw [storeLE_outside _ _ _ ha, hm])

def Aligned (acc : List (Addr × Nat) × Heap) : Prop :=
  acc.2.heapPtr.toNat % 16 = 0 ∧ ∀ b ∈ acc.1, b.1.toNat % 16 = 0

theorem malloc_aligned (size : BitVec 64) (h : Heap) (ha : h.heapPtr.toNat % 16 = 0) :
    (Malloc.malloc size h).2.heapPtr.toNat % 16 = 0 ∧ (Malloc.malloc size h).1.toNat % 16 = 0 := by
  refine ⟨?_, ?_⟩
  · rcases malloc_heapPtr_cases size h with e | e <;> rw [e]
    · exact ha
    · rw [BitVec.toNat_add, roundUp_toNat]
      omega
  · rcases malloc_fst_cases size h with e | e <;> rw [e]
    · rfl
    · exact ha

theorem step_aligned (acc : List (Addr × Nat) × Heap) (c : HeapCall) (ha : Aligned acc) :
    Aligned (step acc c) := by
  obtain ⟨hp, hb⟩ := ha
  refine ⟨?_, ?_⟩
  · simp only [step, exec_heapPtr]
    cases c.mallocSize with
    | none => exact hp
    | some n => exact (malloc_aligned n acc.2 hp).1
  · simp only [step, List.mem_append, List.mem_singleton]
    rintro b (hb' | rfl)
    · exact hb b hb'
    · simp only [exec_fst]
      cases c.mallocSize with
      | none => rfl
      | some n => exact (malloc_aligned n acc.2 hp).2

theorem run_aligned (cs : List HeapCall) (m : Mem) :
    (run cs (Heap.init m)).2.heapPtr.toNat % 16 = 0 ∧
      ∀ b ∈ (run cs (Heap.init m)).1, b.1.toNat % 16 = 0 :=
  List.foldlRecOn (motive := Aligned) cs step _ ⟨show heapStart.toNat % 16 = 0 by decide, fun _ h => nomatch h⟩
    fun acc h c _ => step_aligned acc c h

theorem malloc_heapPtr_le (size : BitVec 64) (h : Heap) (hle : h.heapPtr ≤ heapEnd) :
    (Malloc.malloc size h).2.heapPtr ≤ heapEnd := by
  rw [malloc_eq]
  split_ifs with hlt
  · exact hle
  · exact BitVec.not_lt.mp hlt

theorem malloc_zero (h : Heap) (hle : h.heapPtr ≤ heapEnd) : Malloc.malloc 0 h = (h.heapPtr, h) := by
  rw [malloc_eq, show ((0 : BitVec 64) + 15) &&& ~~~15 = 0 by decide, add_zero,
    if_neg (BitVec.not_lt.mpr hle)]

theorem step_heapPtr_le (acc : List (Addr × Nat) × Heap) (c : HeapCall) (hle : acc.2.heapPtr ≤ heapEnd) :
    (step acc c).2.heapPtr ≤ heapEnd := by
  show (c.exec acc.2).2.heapPtr ≤ heapEnd
  rw [exec_heapPtr]
  cases c.mallocSize with
  | none => exact hle
  | some n => exact malloc_heapPtr_le n acc.2 hle

theorem run_heapPtr_le_heapEnd (cs : List HeapCall) (m : Mem) :
    (run cs (Heap.init m)).2.heapPtr ≤ heapEnd ∧
      Malloc.malloc 0 (run cs (Heap.init m)).2 =
        ((run cs (Heap.init m)).2.heapPtr, (run cs (Heap.init m)).2) := by
  have hle : (run cs (Heap.init m)).2.heapPtr ≤ heapEnd :=
    List.foldlRecOn (motive := fun acc => acc.2.heapPtr ≤ heapEnd) cs step _ (show heapStart ≤ heapEnd by decide)
      fun acc h c _ => step_heapPtr_le acc c h
  exact ⟨hle, malloc_zero _ hle⟩

theorem run_wrapped_request :
    (run [.malloc 0xFFFFFFFFFFFFFFFF#64, .malloc 16#64] (Heap.init fun _ => 0)).1 =
      [(0x500000#64, 0xFFFFFFFFFFFFFFFF), (0x500000#64, 16)] ∧
    heapEnd.toNat - heapStart.toNat < (0xFFFFFFFFFFFFFFFF + 15) / 16 * 16 := by
  decide

end HeapCall

theorem calloc_wrapped_product :
    (calloc 0x100000000#64 0x100000000#64 (Heap.init fun _ => 0)).1 = 0x500000#64 ∧
    (calloc 0x100000000#64 0x100000000#64 (Heap.init fun _ => 0)).2.heapPtr = heapStart ∧
    heapEnd.toNat - 0x500000 < (0x100000000#64).toNat * (0x100000000#64).toNat := by
  decide

end StubLibc.Malloc
