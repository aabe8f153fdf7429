import StubLibc.Machine

namespace StubLibc.VectorIo

def sysRead : Int := 0

def sysWrite : Int := 1

def longMax : Int := 2 ^ 63 - 1

def toLong (x : Int) : Int := x.bmod (2 ^ 64)

structure Iovec where
  iovBase : Addr
  iovLen : BitVec 64
  deriving DecidableEq, Repr

structure Syscall where
  number : Int
  fd : Int
  buf : Addr
  count : BitVec 64
  deriving DecidableEq, Repr

def ioLoop (number : Int) (kernel : Nat → Int) (fd : Int) (iov : Nat → Iovec) :
    Nat → Nat → Int → Int × List Syscall
  | 0, _, total => (total, [])
  | k + 1, i, total =>
    let call : Syscall := ⟨number, fd, (iov i).iovBase, (iov i).iovLen⟩
    let n := kernel i
    if n < 0 then (if total > 0 then total else n, [call])
    else
      let total := toLong (total + n)
      if n < toLong (iov i).iovLen.toNat then (total, [call])
      else
        let r := ioLoop number kernel fd iov k (i + 1) total
        (r.1, call :: r.2)

def readv (kernel : Nat → Int) (fd : Int) (iov : Nat → Iovec) (iovcnt : Int) : Int × List Syscall :=
  ioLoop sysRead kernel fd iov iovcnt.toNat 0 0

def writev (kernel : Nat → Int) (fd : Int) (iov : Nat → Iovec) (iovcnt : Int) : Int × List Syscall :=
  ioLoop sysWrite kernel fd iov iovcnt.toNat 0 0

def done (kernel : Nat → Int) : Nat → Nat
  | 0 => 0
  | j + 1 => done kernel j + (kernel j).toNat

def offset (iov : Nat → Iovec) : Nat → Nat
  | 0 => 0
  | j + 1 => offset iov j + (iov j).iovLen.toNat

def IoVecSpec (number : Int) (kernel : Nat → Int) (fd : Int) (iov : Nat → Iovec) (cnt : Nat)
    (res : Int × List Syscall) : Prop :=
  let m := res.2.length
  (res.2 = (List.range m).map (fun j => ⟨number, fd, (iov j).iovBase, (iov j).iovLen⟩) ∧ m ≤ cnt) ∧
  ((0 < cnt → 0 < m) ∧ ∀ j, j + 1 < cnt → j < m → kernel j = (iov j).iovLen.toNat → j + 1 < m) ∧
  (∀ j, j + 1 < m → kernel j = (iov j).iovLen.toNat) ∧
  (∀ k < m, kernel k < 0 → done kernel k = 0 → res.1 = kernel k) ∧
  ((∀ k < m, 0 ≤ kernel k ∨ 0 < done kernel k) → 0 ≤ res.1 ∧ res.1 = done kernel m) ∧
  ∀ j < cnt, (if j < m then (kernel j).toNat else 0) = min (iov j).iovLen.toNat (res.1.toNat - offset iov j)

theorem toLong_of_le {x : Int} (h0 : 0 ≤ x) (h : x ≤ longMax) : toLong x = x := by
  rw [toLong, Int.bmod_def]
  simp only [longMax] at h
  split_ifs <;> omega

theorem offset_mono (iov : Nat → Iovec) {j j' : Nat} (h : j ≤ j') : offset iov j ≤ offset iov j' :=
  monotone_nat_of_le_succ (fun _ => Nat.le_add_right _ _) h

def LoopFacts (number : Int) (kernel : Nat → Int) (fd : Int) (iov : Nat → Iovec) (k i : Nat)
    (r : Int × List Syscall) : Prop :=
  r.2 = (List.range r.2.length).map (fun t => ⟨number, fd, (iov (i + t)).iovBase, (iov (i + t)).iovLen⟩) ∧
  r.2.length ≤ k ∧
  (∀ t, t + 1 < r.2.length → kernel (i + t) = (iov (i + t)).iovLen.toNat) ∧
  r.1 = if 0 < r.2.length ∧ kernel (i + r.2.length - 1) < 0 ∧ done kernel (i + r.2.length) = 0
    then kernel (i + r.2.length - 1) else done kernel (i + r.2.length)

variable {number : Int} {kernel : Nat → Int} {fd : Int} {iov : Nat → Iovec}

theorem ioLoop_length_pos (k i : Nat) (total : Int) :
    0 < (ioLoop number kernel fd iov (k + 1) i total).2.length := by
  simp only [ioLoop]
  split_ifs <;> simp

theorem ioLoop_length_le (k i : Nat) (total : Int) : (ioLoop number kernel fd iov k i total).2.length ≤ k := by
  induction k generalizing i total with
  | zero => exact le_rfl
  | succ k ih =>
    simp only [ioLoop]
    split_ifs
    any_goals simp
    exact ih _ _

theorem ioLoop_length_pos_iff (k i : Nat) (total : Int) :
    0 < (ioLoop number kernel fd iov k i total).2.length ↔ 0 < k := by
  rcases k with _ | k
  · exact Iff.rfl
  · exact ⟨fun _ => Nat.succ_pos k, fun _ => ioLoop_length_pos k i total⟩

theorem ioLoop_next_iff (k i : Nat) (total : Int) :
    ∀ t < (ioLoop number kernel fd iov k i total).2.length,
      (t + 1 < (ioLoop number kernel fd iov k i total).2.length ↔
        t + 1 < k ∧ 0 ≤ kernel (i + t) ∧ toLong (iov (i + t)).iovLen.toNat ≤ kernel (i + t)) := by
  induction k generalizing i total with
  | zero => intro t ht; exact absurd ht (Nat.not_lt_zero t)
  | succ k ih =>
    intro t ht
    simp only [ioLoop] at ht ⊢
    split_ifs at ht ⊢ with hn hs
    all_goals dsimp only at ht ⊢
    any_goals
      rw [List.length_singleton] at ht ⊢
      obtain rfl : t = 0 := by omega
      simp only [Nat.add_zero]
      omega
    rw [List.length_cons] at ht ⊢
    rcases t with _ | t
    · simp only [Nat.add_zero]
      have := @ioLoop_length_pos_iff number kernel fd iov k (i + 1) (toLong (total + kernel i))
      omega
    · have := ih (i + 1) (toLong (total + kernel i)) t (by omega)
      rw [show i + 1 + t = i + (t + 1) by omega] at this
      omega

theorem ioLoop_facts :
    ∀ k i, done kernel i ≤ offset iov i → offset iov (i + k) ≤ longMax →
      (∀ j, i ≤ j → j < i + (ioLoop number kernel fd iov k i (done kernel i)).2.length →
        kernel j < 0 ∨ kernel j ≤ (iov j).iovLen.toNat) →
      LoopFacts number kernel fd iov k i (ioLoop number kernel fd iov k i (done kernel i)) := by
  intro k
  induction k with
  | zero => intro i _ _ _; simp [LoopFacts, ioLoop]
  | succ k ih =>
    intro i hdone hsum hval
    have hoff : offset iov (i + 1) ≤ offset iov (i + (k + 1)) := offset_mono iov (by omega)
    have hstep : offset iov (i + 1) = offset iov i + (iov i).iovLen.toNat := rfl
    have hL : ((iov i).iovLen.toNat : Int) ≤ longMax := by omega
    by_cases hn : kernel i < 0
    · have hr : ioLoop number kernel fd iov (k + 1) i (done kernel i) =
          (if (done kernel i : Int) > 0 then (done kernel i : Int) else kernel i,
            [⟨number, fd, (iov i).iovBase, (iov i).iovLen⟩]) := by
        simp only [ioLoop, if_pos hn]
      have hd : done kernel (i + 1) = done kernel i := by
        simp [done, Int.toNat_eq_zero.2 (le_of_lt hn)]
      rw [hr]
      refine ⟨by simp [List.range_succ], by simp, by simp, ?_⟩
      simp only [List.length_singleton, Nat.add_sub_cancel, hd, Nat.zero_lt_one, hn, true_and]
      split_ifs <;> first | rfl | omega
    · have hv := hval i le_rfl (by have := @ioLoop_length_pos number kernel fd iov k i (done kernel i); omega)
      have hle : kernel i ≤ (iov i).iovLen.toNat := hv.resolve_left hn
      have hd : ((done kernel (i + 1) : Nat) : Int) = done kernel i + kernel i := by
        simp [done, Int.toNat_of_nonneg (not_lt.1 hn)]
      have htot : toLong (done kernel i + kernel i) = done kernel (i + 1) := by
        rw [hd]; exact toLong_of_le (by omega) (by omega)
      have hlen : toLong (iov i).iovLen.toNat = (iov i).iovLen.toNat := toLong_of_le (by omega) hL
      by_cases hs : kernel i < (iov i).iovLen.toNat
      · have hr : ioLoop number kernel fd iov (k + 1) i (done kernel i) =
            (((done kernel (i + 1) : Nat) : Int), [⟨number, fd, (iov i).iovBase, (iov i).iovLen⟩]) := by
          simp only [ioLoop, if_neg hn, htot, hlen, if_pos hs]
        rw [hr]
        refine ⟨by simp [List.range_succ], by simp, by simp, ?_⟩
        simp [hn]
      · have hr : ioLoop number kernel fd iov (k + 1) i (done kernel i) =
            ((ioLoop number kernel fd iov k (i + 1) (done kernel (i + 1))).1,
              ⟨number, fd, (iov i).iovBase, (iov i).iovLen⟩ ::
                (ioLoop number kernel fd iov k (i + 1) (done kernel (i + 1))).2) := by
          simp only [ioLoop, if_neg hn, htot, hlen, if_neg hs]
        rw [hr] at hval ⊢
        have hfull : kernel i = (iov i).iovLen.toNat := by omega
        obtain ⟨hc, hk, hf, hres⟩ := ih (i + 1) (by omega)
          (by rw [show i + 1 + k = i + (k + 1) by omega]; exact hsum)
          (fun j hj hj' => hval j (by omega) (by simp only [List.length_cons]; omega))
        generalize ioLoop number kernel fd iov k (i + 1) (done kernel (i + 1)) = r at hc hk hf hres ⊢
        simp only [LoopFacts, List.length_cons]
        refine ⟨?_, by omega, fun t ht => ?_, ?_⟩
        · rw [List.range_succ_eq_map, List.map_cons, List.map_map]
          rw [hc]
          simp [Function.comp_def, Nat.add_assoc, Nat.add_comm 1]
        · rcases t with _ | t
          · exact hfull
          · simpa [Nat.add_assoc, Nat.add_comm 1] using hf t (by omega)
        · rw [hres]
          rcases Nat.eq_zero_or_pos r.2.length with h0 | h0
          · simp [h0, hn]
          · simp only [show i + 1 + r.2.length - 1 = i + (r.2.length + 1) - 1 by omega,
              show i + 1 + r.2.length = i + (r.2.length + 1) by omega, h0, Nat.succ_pos]

theorem done_mono (kernel : Nat → Int) {j j' : Nat} (h : j ≤ j') : done kernel j ≤ done kernel j' :=
  monotone_nat_of_le_succ (fun _ => Nat.le_add_right _ _) h

theorem done_eq_offset {m : Nat} (hfull : ∀ j, j + 1 < m → kernel j = (iov j).iovLen.toNat) :
    ∀ j < m, done kernel j = offset iov j := by
  intro j
  induction j with
  | zero => intro _; rfl
  | succ j ih =>
    intro hj
    simp only [done, offset, ih (by omega), hfull j hj, Int.toNat_ofNat]

theorem ioVec_spec (number : Int) (kernel : Nat → Int) (fd : Int) (iov : Nat → Iovec) (cnt : Nat)
    (hsum : offset iov cnt ≤ longMax)
    (hval : ∀ j < (ioLoop number kernel fd iov cnt 0 0).2.length,
      kernel j < 0 ∨ kernel j ≤ (iov j).iovLen.toNat) :
    IoVecSpec number kernel fd iov cnt (ioLoop number kernel fd iov cnt 0 0) := by
  obtain ⟨hc, hk, hf, hres⟩ := @ioLoop_facts number kernel fd iov cnt 0 le_rfl
    (by simpa using hsum) (fun j _ hj => hval j (by simpa using hj))
  have hnext : ∀ j, j + 1 < cnt → j < (ioLoop number kernel fd iov cnt 0 0).2.length →
      kernel j = (iov j).iovLen.toNat → j + 1 < (ioLoop number kernel fd iov cnt 0 0).2.length := by
    intro j hj hjm hfull
    have hlen : ((iov j).iovLen.toNat : Int) ≤ longMax := by
      have := offset_mono iov (show j + 1 ≤ cnt by omega)
      simp only [offset] at this
      omega
    refine (ioLoop_next_iff cnt 0 0 j hjm).2 ⟨hj, ?_, ?_⟩ <;>
      simp only [Nat.zero_add, hfull, toLong_of_le (Int.natCast_nonneg _) hlen, le_refl]
    omega
  have hfirst := (@ioLoop_length_pos_iff number kernel fd iov cnt 0 0).2
  simp only [done, Nat.cast_zero, Nat.zero_add] at hc hk hf hres
  generalize hm : (ioLoop number kernel fd iov cnt 0 0).2.length = m at hc hk hf hres hval hnext hfirst
  generalize hr : (ioLoop number kernel fd iov cnt 0 0).1 = r at hres
  have hD := done_eq_offset hf
  have hlast : ∀ k < m, kernel k < 0 → k + 1 = m := fun k hk' hneg => by
    by_contra hne
    have := hf k (by omega)
    omega
  have hdm : ∀ k, k + 1 = m → done kernel m = done kernel k + (kernel k).toNat := by
    rintro k rfl; rfl
  unfold IoVecSpec
  simp only [hm, hr]
  refine ⟨⟨hc, hk⟩, ⟨hfirst, hnext⟩, hf, fun k hk' hneg h0 => ?_, fun h => ?_, fun j hj => ?_⟩
  · have hkm := hlast k hk' hneg
    rw [hres, if_pos ⟨by omega, by rw [show m - 1 = k by omega]; exact hneg,
      by rw [hdm k hkm, h0, Int.toNat_eq_zero.2 (le_of_lt hneg)]⟩, show m - 1 = k by omega]
  · rw [hres, if_neg]
    · exact ⟨by omega, rfl⟩
    · rintro ⟨hpos, hneg, h0⟩
      rcases h (m - 1) (by omega) with h' | h'
      · omega
      · rw [hdm (m - 1) (by omega), Int.toNat_eq_zero.2 (le_of_lt hneg)] at h0
        omega
  · have htoNat : ∀ k < m, (kernel k).toNat ≤ (iov k).iovLen.toNat := fun k hk' => by
      rcases hval k hk' with hv | hv
      · rw [Int.toNat_eq_zero.2 (le_of_lt hv)]; omega
      · omega
    have hstep : ∀ k, done kernel (k + 1) = done kernel k + (kernel k).toNat := fun _ => rfl
    have hoff : ∀ k, offset iov (k + 1) = offset iov k + (iov k).iovLen.toNat := fun _ => rfl
    by_cases herr : 0 < m ∧ kernel (m - 1) < 0 ∧ done kernel m = 0
    · rw [hres, if_pos herr, Int.toNat_eq_zero.2 (le_of_lt herr.2.1), Nat.zero_sub, Nat.min_zero]
      split_ifs with hjm
      · have := done_mono kernel (show j + 1 ≤ m by omega)
        have := hstep j
        omega
      · rfl
    · rw [hres, if_neg herr, Int.toNat_ofNat]
      split_ifs with hjm
      · by_cases hj1 : j + 1 < m
        · have := done_mono kernel (show j + 1 ≤ m by omega)
          have := hD (j + 1) hj1
          have := hoff j
          rw [hf j hj1, Int.toNat_ofNat]
          omega
        · rw [hdm j (by omega), hD j hjm]
          have := htoNat j hjm
          omega
      · have hdo : done kernel m ≤ offset iov m := by
          rcases Nat.eq_zero_or_pos m with h0 | h0
          · subst h0; exact le_rfl
          · have h1 := hoff (m - 1)
            rw [Nat.sub_add_cancel h0] at h1
            rw [hdm (m - 1) (by omega), hD (m - 1) (by omega)]
            have := htoNat (m - 1) (by omega)
            omega
        have := offset_mono iov (show m ≤ j by omega)
        omega

end StubLibc.VectorIo
