import StubLibc.VectorIo.Loop

namespace StubLibc.VectorIo

variable {α : Type}

def span (f : Addr → α) (p : Addr) (n : Nat) : List α := (List.range n).map fun i => f (index p i)

def transferred (f : Addr → α) (kernel : Nat → Int) : List Syscall → Nat → List α
  | [], _ => []
  | c :: cs, k => span f c.buf (kernel k).toNat ++ transferred f kernel cs (k + 1)

def gathered (f : Addr → α) (iov : Nat → Iovec) (cnt : Nat) : List α :=
  ((List.range cnt).map fun j => span f (iov j).iovBase (iov j).iovLen.toNat).flatten

@[simp] theorem span_zero (f : Addr → α) (p : Addr) : span f p 0 = [] := rfl

@[simp] theorem span_length (f : Addr → α) (p : Addr) (n : Nat) : (span f p n).length = n := by
  simp [span]

theorem span_take (f : Addr → α) (p : Addr) (k n : Nat) : (span f p n).take k = span f p (min k n) := by
  simp only [span, ← List.map_take, List.take_range]

theorem transferred_append (f : Addr → α) (kernel : Nat → Int) (l₁ l₂ : List Syscall) (k : Nat) :
    transferred f kernel (l₁ ++ l₂) k = transferred f kernel l₁ k ++ transferred f kernel l₂ (k + l₁.length) := by
  induction l₁ generalizing k with
  | nil => simp [transferred]
  | cons c l₁ ih => simp [transferred, ih, Nat.add_assoc, Nat.add_comm 1]

theorem transferred_range (f : Addr → α) (kernel : Nat → Int) (number fd : Int) (iov : Nat → Iovec) (m : Nat) :
    transferred f kernel ((List.range m).map fun j => ⟨number, fd, (iov j).iovBase, (iov j).iovLen⟩) 0 =
      ((List.range m).map fun j => span f (iov j).iovBase (kernel j).toNat).flatten := by
  induction m with
  | zero => rfl
  | succ m ih => simp [List.range_succ, transferred_append, ih, transferred]

theorem flatten_range_ite (g : Nat → List α) {m : Nat} (d : Nat) :
    ((List.range (m + d)).map fun j => if j < m then g j else []).flatten = ((List.range m).map g).flatten := by
  induction d with
  | zero => exact congrArg List.flatten (List.map_congr_left fun j hj => if_pos (List.mem_range.1 hj))
  | succ d ih => simp [← Nat.add_assoc, List.range_succ, ih]

theorem gathered_length (f : Addr → α) (iov : Nat → Iovec) (cnt : Nat) :
    (gathered f iov cnt).length = offset iov cnt := by
  induction cnt with
  | zero => rfl
  | succ cnt ih => simp [gathered, List.range_succ, offset, ← ih]

theorem take_gathered (f : Addr → α) (iov : Nat → Iovec) (r cnt : Nat) :
    (gathered f iov cnt).take r =
      ((List.range cnt).map fun j => span f (iov j).iovBase (min (r - offset iov j) (iov j).iovLen.toNat)).flatten := by
  induction cnt with
  | zero => simp [gathered]
  | succ cnt ih =>
    have hg : gathered f iov (cnt + 1) = gathered f iov cnt ++ span f (iov cnt).iovBase (iov cnt).iovLen.toNat := by
      simp [gathered, List.range_succ]
    rw [hg, List.take_append_eq_append_take, ih, gathered_length, span_take, List.range_succ, List.map_append,
      List.flatten_append, List.map_singleton, List.flatten_singleton]

theorem ioVec_transferred (f : Addr → α) {number : Int} {kernel : Nat → Int} {fd : Int} {iov : Nat → Iovec}
    {cnt : Nat} {res : Int × List Syscall} (hs : IoVecSpec number kernel fd iov cnt res) :
    transferred f kernel res.2 0 = (gathered f iov cnt).take res.1.toNat := by
  obtain ⟨⟨hc, hk⟩, -, -, -, -, hpre⟩ := hs
  rw [hc, transferred_range, take_gathered, ← Nat.add_sub_cancel' hk, ← flatten_range_ite]
  refine congrArg List.flatten (List.map_congr_left fun j hj => ?_)
  have hj : j < cnt := by have := List.mem_range.1 hj; omega
  rw [Nat.min_comm, ← hpre j hj]
  split_ifs <;> rfl

theorem writev_sends_prefix (kernel : Nat → Int) (fd : Int) (iov : Nat → Iovec) (iovcnt : Int) (m : Mem)
    (hsum : offset iov iovcnt.toNat ≤ longMax)
    (hval : ∀ j < (writev kernel fd iov iovcnt).2.length, kernel j < 0 ∨ kernel j ≤ (iov j).iovLen.toNat) :
    transferred m kernel (writev kernel fd iov iovcnt).2 0 =
      (gathered m iov iovcnt.toNat).take (writev kernel fd iov iovcnt).1.toNat :=
  ioVec_transferred m (ioVec_spec _ _ _ _ _ hsum hval)

theorem writev_sends_prefix_short_second :
    offset (fun j => ⟨0x1000#64 + BitVec.ofNat 64 (0x100 * j), 4#64⟩) (3 : Int).toNat ≤ longMax ∧
    (∀ j < (writev (fun k => if k = 0 then 4 else 2) 1 (fun j => ⟨0x1000#64 + BitVec.ofNat 64 (0x100 * j), 4#64⟩)
        3).2.length,
      (fun k => if k = 0 then (4 : Int) else 2) j < 0 ∨
        (fun k => if k = 0 then (4 : Int) else 2) j ≤ ((⟨0x1000#64 + BitVec.ofNat 64 (0x100 * j), 4#64⟩ : Iovec)).iovLen.toNat) ∧
    transferred (BitVec.setWidth 8) (fun k => if k = 0 then 4 else 2)
        (writev (fun k => if k = 0 then 4 else 2) 1 (fun j => ⟨0x1000#64 + BitVec.ofNat 64 (0x100 * j), 4#64⟩) 3).2 0 =
      (gathered (BitVec.setWidth 8) (fun j => ⟨0x1000#64 + BitVec.ofNat 64 (0x100 * j), 4#64⟩) (3 : Int).toNat).take
        (writev (fun k => if k = 0 then 4 else 2) 1 (fun j => ⟨0x1000#64 + BitVec.ofNat 64 (0x100 * j), 4#64⟩) 3).1.toNat :=
  ⟨by decide, by decide, writev_sends_prefix _ _ _ _ _ (by decide) (by decide)⟩

end StubLibc.VectorIo
