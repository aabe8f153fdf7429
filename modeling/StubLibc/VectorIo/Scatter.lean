import StubLibc.VectorIo.Transfer

namespace StubLibc.VectorIo

def storeAll (m : Mem) : List (Addr × Byte) → Mem
  | [] => m
  | (a, v) :: ws => storeAll (Function.update m a v) ws

def readStores (data : Nat → Nat → Byte) (kernel : Nat → Int) : List Syscall → Nat → List (Addr × Byte)
  | [], _ => []
  | c :: cs, k =>
    ((List.range (kernel k).toNat).map fun j => (index c.buf j, data k j)) ++ readStores data kernel cs (k + 1)

def readvMem (data : Nat → Nat → Byte) (kernel : Nat → Int) (fd : Int) (iov : Nat → Iovec) (iovcnt : Int)
    (m : Mem) : Mem :=
  storeAll m (readStores data kernel (readv kernel fd iov iovcnt).2 0)

def readMem (result : Int) (data : Nat → Byte) (fd : Int) (buf : Addr) (count : BitVec 64) (m : Mem) : Mem :=
  storeAll m (readStores (fun _ => data) (fun _ => result) [⟨sysRead, fd, buf, count⟩] 0)

def iovAt (m : Mem) (iov : Addr) (i : Nat) : Iovec :=
  ⟨loadU64 m (index iov (16 * i)), loadU64 m (index iov (16 * i + 8))⟩

def readvLoop (kernel : Nat → Int) (data : Nat → Nat → Byte) (fd : Int) (iov : Addr) :
    Nat → Nat → Int → Mem → Int × List Syscall × Mem
  | 0, _, total, m => (total, [], m)
  | k + 1, i, total, m =>
    let call : Syscall := ⟨sysRead, fd, (iovAt m iov i).iovBase, (iovAt m iov i).iovLen⟩
    let n := kernel i
    let m' := storeAll m ((List.range n.toNat).map fun j => (index call.buf j, data i j))
    if n < 0 then (if total > 0 then total else n, [call], m')
    else
      let total := toLong (total + n)
      if n < toLong (iovAt m' iov i).iovLen.toNat then (total, [call], m')
      else
        let r := readvLoop kernel data fd iov k (i + 1) total m'
        (r.1, call :: r.2.1, r.2.2)

def readvAt (kernel : Nat → Int) (data : Nat → Nat → Byte) (fd : Int) (iov : Addr) (iovcnt : Int) (m : Mem) :
    Int × List Syscall × Mem :=
  readvLoop kernel data fd iov iovcnt.toNat 0 0 m

theorem storeAll_of_not_mem (m : Mem) (ws : List (Addr × Byte)) {a : Addr} (ha : a ∉ ws.map Prod.fst) :
    storeAll m ws a = m a := by
  induction ws generalizing m with
  | nil => rfl
  | cons w ws ih =>
    simp only [List.map_cons, List.mem_cons, not_or] at ha
    rw [storeAll, ih _ ha.2, Function.update_noteq ha.1]

theorem storeAll_map (m : Mem) (ws : List (Addr × Byte)) (hnd : (ws.map Prod.fst).Nodup) :
    (ws.map Prod.fst).map (storeAll m ws) = ws.map Prod.snd := by
  induction ws generalizing m with
  | nil => rfl
  | cons w ws ih =>
    rw [List.map_cons, List.nodup_cons] at hnd
    simp only [List.map_cons, storeAll, ih _ hnd.2, storeAll_of_not_mem _ _ hnd.1, Function.update_same]

theorem storeAll_append (m : Mem) (l₁ l₂ : List (Addr × Byte)) :
    storeAll m (l₁ ++ l₂) = storeAll (storeAll m l₁) l₂ := by
  induction l₁ generalizing m with
  | nil => rfl
  | cons w l₁ ih => exact ih _

theorem readStores_append (data : Nat → Nat → Byte) (kernel : Nat → Int) (l₁ l₂ : List Syscall) (k : Nat) :
    readStores data kernel (l₁ ++ l₂) k = readStores data kernel l₁ k ++ readStores data kernel l₂ (k + l₁.length) := by
  induction l₁ generalizing k with
  | nil => simp [readStores]
  | cons c l₁ ih => simp [readStores, ih, Nat.add_assoc, Nat.add_comm 1]

theorem readStores_fst (data : Nat → Nat → Byte) (kernel : Nat → Int) (calls : List Syscall) (k : Nat) :
    (readStores data kernel calls k).map Prod.fst = transferred id kernel calls k := by
  induction calls generalizing k with
  | nil => rfl
  | cons c calls ih => simp [readStores, transferred, span, ih]

theorem readStores_snd (data : Nat → Nat → Byte) (stream : Nat → Byte) (kernel : Nat → Int) (number fd : Int)
    (iov : Nat → Iovec) (hstream : ∀ k j, data k j = stream (done kernel k + j)) (n : Nat) :
    (readStores data kernel ((List.range n).map fun j => ⟨number, fd, (iov j).iovBase, (iov j).iovLen⟩) 0).map
      Prod.snd = (List.range (done kernel n)).map stream := by
  induction n with
  | zero => rfl
  | succ n ih =>
    rw [List.range_succ, List.map_append, readStores_append, List.map_append, ih, done, List.range_add,
      List.map_append, List.map_map]
    simp [readStores, hstream]

theorem gathered_map {α : Type} (f : Addr → α) (iov : Nat → Iovec) (cnt : Nat) :
    gathered f iov cnt = (gathered id iov cnt).map f := by
  simp [gathered, span, List.map_flatten, List.map_map, Function.comp_def]

theorem readMem_frame (result : Int) (data : Nat → Byte) (fd : Int) (buf : Addr) (count : BitVec 64) (m : Mem)
    (a : Addr) : readMem result data fd buf count m a = m a ∨ Touches buf result.toNat a := by
  by_cases ha : Touches buf result.toNat a
  · exact .inr ha
  · refine .inl (storeAll_of_not_mem _ _ ?_)
    simp only [readStores, List.append_nil, List.map_map, List.mem_map, List.mem_range, not_exists, not_and]
    exact fun j hj e => ha (e ▸ touches_index buf hj)

theorem readStores_fst_spec (data : Nat → Nat → Byte) {number : Int} {kernel : Nat → Int} {fd : Int}
    {iov : Nat → Iovec} {cnt : Nat} {res : Int × List Syscall} (hs : IoVecSpec number kernel fd iov cnt res) :
    (readStores data kernel res.2 0).map Prod.fst = (gathered id iov cnt).take res.1.toNat := by
  rw [readStores_fst]; exact ioVec_transferred id hs

theorem readStores_snd_spec {data : Nat → Nat → Byte} (stream : Nat → Byte) {number : Int} {kernel : Nat → Int}
    {fd : Int} {iov : Nat → Iovec} {cnt : Nat} {res : Int × List Syscall} (hs : IoVecSpec number kernel fd iov cnt res)
    (hstream : ∀ k j, data k j = stream (done kernel k + j)) :
    (readStores data kernel res.2 0).map Prod.snd = (List.range res.1.toNat).map stream := by
  obtain ⟨⟨hc, -⟩, -, hf, herr, hok, -⟩ := hs
  generalize hM : res.2.length = M at hc hf herr hok
  rw [hc, readStores_snd data stream kernel _ _ iov hstream]
  by_cases hall : ∀ k < M, 0 ≤ kernel k ∨ 0 < done kernel k
  · rw [(hok hall).2, Int.toNat_ofNat]
  · push_neg at hall
    obtain ⟨k, hk, hneg, h0⟩ := hall
    have hlast : k + 1 = M := by
      by_contra hne
      have := hf k (by omega)
      omega
    have hz := Int.toNat_eq_zero.2 (le_of_lt hneg)
    have hd : done kernel M = 0 := by rw [← hlast, done, hz]; omega
    rw [herr k hk hneg (by omega), hd, hz]

theorem iovAt_congr {m m' : Mem} {iov : Addr} {cnt i : Nat} (h : ∀ a, Touches iov (16 * cnt) a → m a = m' a)
    (hi : i < cnt) : iovAt m iov i = iovAt m' iov i := by
  have hl : ∀ o < 9, loadLE m (index iov (16 * i + o)) 8 = loadLE m' (index iov (16 * i + o)) 8 := fun o _ =>
    loadLE_congr fun t _ => h _ (by rw [index_index]; exact touches_index iov (by omega))
  have h0 := hl 0 (by omega)
  rw [Nat.add_zero] at h0
  simp only [iovAt, loadU64, h0, hl 8 (by omega)]

theorem readvLoop_mem (kernel : Nat → Int) (data : Nat → Nat → Byte) (fd : Int) (iov : Addr) :
    ∀ k i total m, (readvLoop kernel data fd iov k i total m).2.2 =
      storeAll m (readStores data kernel (readvLoop kernel data fd iov k i total m).2.1 i) := by
  intro k
  induction k with
  | zero => intro _ _ _; rfl
  | succ k ih =>
    intro i total m
    simp only [readvLoop]
    split_ifs
    any_goals simp [readStores]
    rw [ih, storeAll_append]

theorem ioLoop_head (number : Int) (kernel : Nat → Int) (fd : Int) (iov : Nat → Iovec) (k i : Nat) (total : Int) :
    ∃ rest, (ioLoop number kernel fd iov (k + 1) i total).2 = ⟨number, fd, (iov i).iovBase, (iov i).iovLen⟩ :: rest := by
  simp only [ioLoop]
  split_ifs <;> exact ⟨_, rfl⟩

theorem readvLoop_eq (kernel : Nat → Int) (data : Nat → Nat → Byte) (fd : Int) (iov : Addr) (m₀ : Mem) (cnt : Nat) :
    ∀ k i total m, i + k ≤ cnt → (∀ a, Touches iov (16 * cnt) a → m a = m₀ a) →
      (∀ a ∈ transferred id kernel (ioLoop sysRead kernel fd (iovAt m₀ iov) k i total).2 i,
        ¬Touches iov (16 * cnt) a) →
      readvLoop kernel data fd iov k i total m =
        ((ioLoop sysRead kernel fd (iovAt m₀ iov) k i total).1, (ioLoop sysRead kernel fd (iovAt m₀ iov) k i total).2,
          storeAll m (readStores data kernel (ioLoop sysRead kernel fd (iovAt m₀ iov) k i total).2 i)) := by
  intro k
  induction k with
  | zero => intro _ _ _ _ _ _; rfl
  | succ k ih =>
    intro i total m hk hm hsafe
    have hv : iovAt m iov i = iovAt m₀ iov i := iovAt_congr hm (by omega)
    obtain ⟨rest, hrest⟩ := ioLoop_head sysRead kernel fd (iovAt m₀ iov) k i total
    have hm' : ∀ a, Touches iov (16 * cnt) a →
        storeAll m ((List.range (kernel i).toNat).map fun j => (index (iovAt m iov i).iovBase j, data i j)) a =
          m₀ a := by
      intro a ha
      refine (storeAll_of_not_mem _ _ fun hmem => hsafe a ?_ ha).trans (hm a ha)
      rw [hrest, transferred, ← hv]
      refine List.mem_append_left _ ?_
      simpa [span, List.map_map, Function.comp_def] using hmem
    have hv' := iovAt_congr hm' (i := i) (by omega)
    simp only [readvLoop, ioLoop] at hsafe ⊢
    rw [hv']
    rw [hv] at hm' ⊢
    split_ifs at hsafe ⊢
    any_goals simp [readStores]
    rw [ih (i + 1) _ _ (by omega) hm' fun a ha => hsafe a (by rw [transferred]; exact List.mem_append_right _ ha)]
    simp [readStores, storeAll_append]

theorem readvAt_eq (kernel : Nat → Int) (data : Nat → Nat → Byte) (fd : Int) (iov : Addr) (iovcnt : Int) (m : Mem)
    (hsafe : ∀ a ∈ transferred id kernel (readv kernel fd (iovAt m iov) iovcnt).2 0,
      ¬Touches iov (16 * iovcnt.toNat) a) :
    readvAt kernel data fd iov iovcnt m =
      ((readv kernel fd (iovAt m iov) iovcnt).1, (readv kernel fd (iovAt m iov) iovcnt).2,
        readvMem data kernel fd (iovAt m iov) iovcnt m) :=
  readvLoop_eq kernel data fd iov m iovcnt.toNat iovcnt.toNat 0 0 m (Nat.zero_add _).le (fun _ _ => rfl) hsafe

theorem readvAt_frame (kernel : Nat → Int) (data : Nat → Nat → Byte) (fd : Int) (iov : Addr) (iovcnt : Int)
    (m : Mem) (a : Addr) :
    (readvAt kernel data fd iov iovcnt m).2.2 a = m a ∨
      a ∈ transferred id kernel (readvAt kernel data fd iov iovcnt m).2.1 0 := by
  by_cases ha : a ∈ transferred id kernel (readvAt kernel data fd iov iovcnt m).2.1 0
  · exact .inr ha
  · refine .inl ?_
    unfold readvAt at ha ⊢
    rw [readvLoop_mem]
    exact storeAll_of_not_mem _ _ (by rwa [readStores_fst])

theorem readv_fills_prefix (kernel : Nat → Int) (data : Nat → Nat → Byte) (fd : Int) (iov : Addr) (iovcnt : Int)
    (m : Mem) (hsum : offset (iovAt m iov) iovcnt.toNat ≤ longMax)
    (hval : ∀ j < (readv kernel fd (iovAt m iov) iovcnt).2.length,
      kernel j < 0 ∨ kernel j ≤ (iovAt m iov j).iovLen.toNat)
    (hsafe : ∀ a ∈ transferred id kernel (readv kernel fd (iovAt m iov) iovcnt).2 0,
      ¬Touches iov (16 * iovcnt.toNat) a) :
    transferred id kernel (readvAt kernel data fd iov iovcnt m).2.1 0 =
      (gathered id (iovAt m iov) iovcnt.toNat).take (readvAt kernel data fd iov iovcnt m).1.toNat := by
  rw [readvAt_eq kernel data fd iov iovcnt m hsafe]
  exact ioVec_transferred id (ioVec_spec _ _ _ _ _ hsum hval)

theorem readv_fills_prefix_short_second :
    offset (iovAt (fun a : Addr => if a.toNat < 48 then BitVec.ofNat 8 ((if a.toNat % 16 < 8 then 0x1000 + 0x100 * (a.toNat / 16) else 4) / 256 ^ (a.toNat % 8)) else 0) 0) (3 : Int).toNat ≤ longMax ∧
    (∀ j < (readv (fun k => if k = 0 then (4 : Int) else 2) 0 (iovAt (fun a : Addr => if a.toNat < 48 then BitVec.ofNat 8 ((if a.toNat % 16 < 8 then 0x1000 + 0x100 * (a.toNat / 16) else 4) / 256 ^ (a.toNat % 8)) else 0) 0) 3).2.length, (fun k => if k = 0 then (4 : Int) else 2) j < 0 ∨ (fun k => if k = 0 then (4 : Int) else 2) j ≤ (iovAt (fun a : Addr => if a.toNat < 48 then BitVec.ofNat 8 ((if a.toNat % 16 < 8 then 0x1000 + 0x100 * (a.toNat / 16) else 4) / 256 ^ (a.toNat % 8)) else 0) 0 j).iovLen.toNat) ∧
    (∀ a ∈ transferred id (fun k => if k = 0 then (4 : Int) else 2) (readv (fun k => if k = 0 then (4 : Int) else 2) 0 (iovAt (fun a : Addr => if a.toNat < 48 then BitVec.ofNat 8 ((if a.toNat % 16 < 8 then 0x1000 + 0x100 * (a.toNat / 16) else 4) / 256 ^ (a.toNat % 8)) else 0) 0) 3).2 0, ¬Touches 0 (16 * (3 : Int).toNat) a) ∧
    transferred id (fun k => if k = 0 then (4 : Int) else 2) (readvAt (fun k => if k = 0 then (4 : Int) else 2) (fun k j => BitVec.ofNat 8 (k + j)) 0 0 3 (fun a : Addr => if a.toNat < 48 then BitVec.ofNat 8 ((if a.toNat % 16 < 8 then 0x1000 + 0x100 * (a.toNat / 16) else 4) / 256 ^ (a.toNat % 8)) else 0)).2.1 0 = (gathered id (iovAt (fun a : Addr => if a.toNat < 48 then BitVec.ofNat 8 ((if a.toNat % 16 < 8 then 0x1000 + 0x100 * (a.toNat / 16) else 4) / 256 ^ (a.toNat % 8)) else 0) 0) (3 : Int).toNat).take (readvAt (fun k => if k = 0 then (4 : Int) else 2) (fun k j => BitVec.ofNat 8 (k + j)) 0 0 3 (fun a : Addr => if a.toNat < 48 then BitVec.ofNat 8 ((if a.toNat % 16 < 8 then 0x1000 + 0x100 * (a.toNat / 16) else 4) / 256 ^ (a.toNat % 8)) else 0)).1.toNat :=
  ⟨by decide, by decide, @of_decide_eq_true _ (List.decidableBAll _ _) rfl, readv_fills_prefix _ _ _ _ _ _ (by decide) (by decide) (@of_decide_eq_true _ (List.decidableBAll _ _) rfl)⟩

theorem readvAt_take_gathered (kernel : Nat → Int) (data : Nat → Nat → Byte) (stream : Nat → Byte) (fd : Int)
    (iov : Addr) (iovcnt : Int) (m : Mem)
    (hsum : offset (iovAt m iov) iovcnt.toNat ≤ longMax)
    (hval : ∀ j < (readv kernel fd (iovAt m iov) iovcnt).2.length,
      kernel j < 0 ∨ kernel j ≤ (iovAt m iov j).iovLen.toNat)
    (hstream : ∀ k j, data k j = stream (done kernel k + j))
    (hdisj : (gathered id (iovAt m iov) iovcnt.toNat).Nodup)
    (hsafe : ∀ a ∈ transferred id kernel (readv kernel fd (iovAt m iov) iovcnt).2 0,
      ¬Touches iov (16 * iovcnt.toNat) a) :
    (gathered (readvAt kernel data fd iov iovcnt m).2.2 (iovAt m iov) iovcnt.toNat).take
        (readvAt kernel data fd iov iovcnt m).1.toNat =
      (List.range (readvAt kernel data fd iov iovcnt m).1.toNat).map stream := by
  rw [readvAt_eq kernel data fd iov iovcnt m hsafe]
  have hs : IoVecSpec sysRead kernel fd (iovAt m iov) iovcnt.toNat (readv kernel fd (iovAt m iov) iovcnt) :=
    ioVec_spec _ _ _ _ _ hsum hval
  have hfst := readStores_fst_spec data hs
  rw [gathered_map, ← List.map_take, ← hfst, readvMem,
    storeAll_map _ _ (hfst ▸ hdisj.sublist (List.take_sublist _ _)), readStores_snd_spec stream hs hstream]

theorem readv_stores_stream (kernel : Nat → Int) (data : Nat → Nat → Byte) (stream : Nat → Byte) (fd : Int)
    (iov : Addr) (iovcnt : Int) (m : Mem)
    (hsum : offset (iovAt m iov) iovcnt.toNat ≤ longMax)
    (hval : ∀ j < (readv kernel fd (iovAt m iov) iovcnt).2.length,
      kernel j < 0 ∨ kernel j ≤ (iovAt m iov j).iovLen.toNat)
    (hstream : ∀ k j, data k j = stream (done kernel k + j))
    (hdisj : (gathered id (iovAt m iov) iovcnt.toNat).Nodup)
    (hsafe : ∀ a ∈ transferred id kernel (readv kernel fd (iovAt m iov) iovcnt).2 0,
      ¬Touches iov (16 * iovcnt.toNat) a) :
    (gathered (readvAt kernel data fd iov iovcnt m).2.2 (iovAt m iov) iovcnt.toNat).take
        (readvAt kernel data fd iov iovcnt m).1.toNat =
      (List.range (readvAt kernel data fd iov iovcnt m).1.toNat).map stream ∧
    (∀ a, a ∉ (gathered id (iovAt m iov) iovcnt.toNat).take (readvAt kernel data fd iov iovcnt m).1.toNat →
      (readvAt kernel data fd iov iovcnt m).2.2 a = m a) ∧
    ∀ j < iovcnt.toNat, iovAt (readvAt kernel data fd iov iovcnt m).2.2 iov j = iovAt m iov j := by
  refine ⟨readvAt_take_gathered kernel data stream fd iov iovcnt m hsum hval hstream hdisj hsafe, ?_⟩
  rw [readvAt_eq kernel data fd iov iovcnt m hsafe]
  have hs : IoVecSpec sysRead kernel fd (iovAt m iov) iovcnt.toNat (readv kernel fd (iovAt m iov) iovcnt) :=
    ioVec_spec _ _ _ _ _ hsum hval
  have hframe : ∀ a, a ∉ (gathered id (iovAt m iov) iovcnt.toNat).take (readv kernel fd (iovAt m iov) iovcnt).1.toNat →
      readvMem data kernel fd (iovAt m iov) iovcnt m a = m a :=
    fun a ha => storeAll_of_not_mem _ _ (readStores_fst_spec data hs ▸ ha)
  refine ⟨hframe, fun j hj => iovAt_congr (fun a ha => hframe a fun hmem => hsafe a ?_ ha) hj⟩
  rwa [ioVec_transferred id hs]

theorem readv_stores_stream_short_second :
    offset (iovAt (fun a : Addr => if a.toNat < 48 then BitVec.ofNat 8 ((if a.toNat % 16 < 8 then 0x1000 + 0x100 * (a.toNat / 16) else 4) / 256 ^ (a.toNat % 8)) else 0) 0) (3 : Int).toNat ≤ longMax ∧
    (∀ j < (readv (fun k => if k = 0 then (4 : Int) else 2) 0 (iovAt (fun a : Addr => if a.toNat < 48 then BitVec.ofNat 8 ((if a.toNat % 16 < 8 then 0x1000 + 0x100 * (a.toNat / 16) else 4) / 256 ^ (a.toNat % 8)) else 0) 0) 3).2.length, (fun k => if k = 0 then (4 : Int) else 2) j < 0 ∨ (fun k => if k = 0 then (4 : Int) else 2) j ≤ (iovAt (fun a : Addr => if a.toNat < 48 then BitVec.ofNat 8 ((if a.toNat % 16 < 8 then 0x1000 + 0x100 * (a.toNat / 16) else 4) / 256 ^ (a.toNat % 8)) else 0) 0 j).iovLen.toNat) ∧
    (∀ k j, (fun k j => BitVec.ofNat 8 (done (fun k => if k = 0 then (4 : Int) else 2) k + j + 65)) k j = (fun t => BitVec.ofNat 8 (t + 65)) (done (fun k => if k = 0 then (4 : Int) else 2) k + j)) ∧
    (gathered id (iovAt (fun a : Addr => if a.toNat < 48 then BitVec.ofNat 8 ((if a.toNat % 16 < 8 then 0x1000 + 0x100 * (a.toNat / 16) else 4) / 256 ^ (a.toNat % 8)) else 0) 0) (3 : Int).toNat).Nodup ∧
    (∀ a ∈ transferred id (fun k => if k = 0 then (4 : Int) else 2) (readv (fun k => if k = 0 then (4 : Int) else 2) 0 (iovAt (fun a : Addr => if a.toNat < 48 then BitVec.ofNat 8 ((if a.toNat % 16 < 8 then 0x1000 + 0x100 * (a.toNat / 16) else 4) / 256 ^ (a.toNat % 8)) else 0) 0) 3).2 0, ¬Touches 0 (16 * (3 : Int).toNat) a) ∧
    (gathered (readvAt (fun k => if k = 0 then (4 : Int) else 2) (fun k j => BitVec.ofNat 8 (done (fun k => if k = 0 then (4 : Int) else 2) k + j + 65)) 0 0 3 (fun a : Addr => if a.toNat < 48 then BitVec.ofNat 8 ((if a.toNat % 16 < 8 then 0x1000 + 0x100 * (a.toNat / 16) else 4) / 256 ^ (a.toNat % 8)) else 0)).2.2 (iovAt (fun a : Addr => if a.toNat < 48 then BitVec.ofNat 8 ((if a.toNat % 16 < 8 then 0x1000 + 0x100 * (a.toNat / 16) else 4) / 256 ^ (a.toNat % 8)) else 0) 0) (3 : Int).toNat).take (readvAt (fun k => if k = 0 then (4 : Int) else 2) (fun k j => BitVec.ofNat 8 (done (fun k => if k = 0 then (4 : Int) else 2) k + j + 65)) 0 0 3 (fun a : Addr => if a.toNat < 48 then BitVec.ofNat 8 ((if a.toNat % 16 < 8 then 0x1000 + 0x100 * (a.toNat / 16) else 4) / 256 ^ (a.toNat % 8)) else 0)).1.toNat =
      (List.range (readvAt (fun k => if k = 0 then (4 : Int) else 2) (fun k j => BitVec.ofNat 8 (done (fun k => if k = 0 then (4 : Int) else 2) k + j + 65)) 0 0 3 (fun a : Addr => if a.toNat < 48 then BitVec.ofNat 8 ((if a.toNat % 16 < 8 then 0x1000 + 0x100 * (a.toNat / 16) else 4) / 256 ^ (a.toNat % 8)) else 0)).1.toNat).map (fun t => BitVec.ofNat 8 (t + 65)) ∧
    (∀ a, a ∉ (gathered id (iovAt (fun a : Addr => if a.toNat < 48 then BitVec.ofNat 8 ((if a.toNat % 16 < 8 then 0x1000 + 0x100 * (a.toNat / 16) else 4) / 256 ^ (a.toNat % 8)) else 0) 0) (3 : Int).toNat).take (readvAt (fun k => if k = 0 then (4 : Int) else 2) (fun k j => BitVec.ofNat 8 (done (fun k => if k = 0 then (4 : Int) else 2) k + j + 65)) 0 0 3 (fun a : Addr => if a.toNat < 48 then BitVec.ofNat 8 ((if a.toNat % 16 < 8 then 0x1000 + 0x100 * (a.toNat / 16) else 4) / 256 ^ (a.toNat % 8)) else 0)).1.toNat →
      (readvAt (fun k => if k = 0 then (4 : Int) else 2) (fun k j => BitVec.ofNat 8 (done (fun k => if k = 0 then (4 : Int) else 2) k + j + 65)) 0 0 3 (fun a : Addr => if a.toNat < 48 then BitVec.ofNat 8 ((if a.toNat % 16 < 8 then 0x1000 + 0x100 * (a.toNat / 16) else 4) / 256 ^ (a.toNat % 8)) else 0)).2.2 a = (fun a : Addr => if a.toNat < 48 then BitVec.ofNat 8 ((if a.toNat % 16 < 8 then 0x1000 + 0x100 * (a.toNat / 16) else 4) / 256 ^ (a.toNat % 8)) else 0) a) ∧
    ∀ j < (3 : Int).toNat, iovAt (readvAt (fun k => if k = 0 then (4 : Int) else 2) (fun k j => BitVec.ofNat 8 (done (fun k => if k = 0 then (4 : Int) else 2) k + j + 65)) 0 0 3 (fun a : Addr => if a.toNat < 48 then BitVec.ofNat 8 ((if a.toNat % 16 < 8 then 0x1000 + 0x100 * (a.toNat / 16) else 4) / 256 ^ (a.toNat % 8)) else 0)).2.2 0 j = iovAt (fun a : Addr => if a.toNat < 48 then BitVec.ofNat 8 ((if a.toNat % 16 < 8 then 0x1000 + 0x100 * (a.toNat / 16) else 4) / 256 ^ (a.toNat % 8)) else 0) 0 j :=
  ⟨by decide, by decide, fun _ _ => rfl, by decide, @of_decide_eq_true _ (List.decidableBAll _ _) rfl,
    readv_stores_stream _ _ _ _ _ _ _ (by decide) (by decide) (fun _ _ => rfl) (by decide) (@of_decide_eq_true _ (List.decidableBAll _ _) rfl)⟩

theorem map_getD_range {α : Type} (l : List α) (d : α) {n : Nat} (hn : n ≤ l.length) :
    (List.range n).map (fun t => l.getD t d) = l.take n := by
  refine List.ext_getElem (by simp [hn]) fun t h1 _ => ?_
  have ht : t < l.length := by simp at h1; omega
  simp [List.getElem?_eq_getElem ht]

theorem pipe_round_trip (kw kr : Nat → Int) (fdW fdR : Int) (iovW iovR : Addr) (cntW cntR : Int)
    (m m' : Mem) (data : Nat → Nat → Byte)
    (hsumW : offset (iovAt m iovW) cntW.toNat ≤ longMax)
    (hvalW : ∀ j < (writev kw fdW (iovAt m iovW) cntW).2.length,
      kw j < 0 ∨ kw j ≤ (iovAt m iovW j).iovLen.toNat)
    (hsumR : offset (iovAt m' iovR) cntR.toNat ≤ longMax)
    (hvalR : ∀ j < (readv kr fdR (iovAt m' iovR) cntR).2.length,
      kr j < 0 ∨ kr j ≤ (iovAt m' iovR j).iovLen.toNat)
    (hdisj : (gathered id (iovAt m' iovR) cntR.toNat).Nodup)
    (hsafe : ∀ a ∈ transferred id kr (readv kr fdR (iovAt m' iovR) cntR).2 0,
      ¬Touches iovR (16 * cntR.toNat) a)
    (hpipe : ∀ k j, data k j =
      (transferred m kw (writev kw fdW (iovAt m iovW) cntW).2 0).getD (done kr k + j) 0)
    (hfifo : (readv kr fdR (iovAt m' iovR) cntR).1.toNat ≤
      (transferred m kw (writev kw fdW (iovAt m iovW) cntW).2 0).length) :
    (gathered (readvAt kr data fdR iovR cntR m').2.2 (iovAt m' iovR) cntR.toNat).take
        (readvAt kr data fdR iovR cntR m').1.toNat =
      (gathered m (iovAt m iovW) cntW.toNat).take (readvAt kr data fdR iovR cntR m').1.toNat := by
  have hsent : transferred m kw (writev kw fdW (iovAt m iovW) cntW).2 0 =
      (gathered m (iovAt m iovW) cntW.toNat).take (writev kw fdW (iovAt m iovW) cntW).1.toNat :=
    ioVec_transferred m (ioVec_spec _ _ _ _ _ hsumW hvalW)
  have hres : (readvAt kr data fdR iovR cntR m').1 = (readv kr fdR (iovAt m' iovR) cntR).1 := by
    rw [readvAt_eq kr data fdR iovR cntR m' hsafe]
  rw [readvAt_take_gathered kr data (fun t => (transferred m kw (writev kw fdW (iovAt m iovW) cntW).2 0).getD t 0)
      fdR iovR cntR m' hsumR hvalR hpipe hdisj hsafe, hres,
    map_getD_range _ _ hfifo, hsent, List.take_take]
  rw [hsent, List.length_take] at hfifo
  rw [min_eq_left (by omega)]

theorem pipe_round_trip_short_read :
    offset (iovAt (fun a : Addr => if a.toNat < 48 then BitVec.ofNat 8 ((if a.toNat % 16 < 8 then 0x1000 + 0x100 * (a.toNat / 16) else 4) / 256 ^ (a.toNat % 8)) else BitVec.setWidth 8 a) 0) (3 : Int).toNat ≤ longMax ∧
    (∀ j < (writev (fun _ => (4 : Int)) 1 (iovAt (fun a : Addr => if a.toNat < 48 then BitVec.ofNat 8 ((if a.toNat % 16 < 8 then 0x1000 + 0x100 * (a.toNat / 16) else 4) / 256 ^ (a.toNat % 8)) else BitVec.setWidth 8 a) 0) 3).2.length, (fun _ => (4 : Int)) j < 0 ∨ (fun _ => (4 : Int)) j ≤ (iovAt (fun a : Addr => if a.toNat < 48 then BitVec.ofNat 8 ((if a.toNat % 16 < 8 then 0x1000 + 0x100 * (a.toNat / 16) else 4) / 256 ^ (a.toNat % 8)) else BitVec.setWidth 8 a) 0 j).iovLen.toNat) ∧
    offset (iovAt (fun a : Addr => if a.toNat < 32 then BitVec.ofNat 8 ((if a.toNat % 16 < 8 then 0x8000 + 0x100 * (a.toNat / 16) else 6) / 256 ^ (a.toNat % 8)) else 0) 0) (2 : Int).toNat ≤ longMax ∧
    (∀ j < (readv (fun k => if k = 0 then (6 : Int) else 3) 0 (iovAt (fun a : Addr => if a.toNat < 32 then BitVec.ofNat 8 ((if a.toNat % 16 < 8 then 0x8000 + 0x100 * (a.toNat / 16) else 6) / 256 ^ (a.toNat % 8)) else 0) 0) 2).2.length, (fun k => if k = 0 then (6 : Int) else 3) j < 0 ∨ (fun k => if k = 0 then (6 : Int) else 3) j ≤ (iovAt (fun a : Addr => if a.toNat < 32 then BitVec.ofNat 8 ((if a.toNat % 16 < 8 then 0x8000 + 0x100 * (a.toNat / 16) else 6) / 256 ^ (a.toNat % 8)) else 0) 0 j).iovLen.toNat) ∧
    (gathered id (iovAt (fun a : Addr => if a.toNat < 32 then BitVec.ofNat 8 ((if a.toNat % 16 < 8 then 0x8000 + 0x100 * (a.toNat / 16) else 6) / 256 ^ (a.toNat % 8)) else 0) 0) (2 : Int).toNat).Nodup ∧
    (∀ a ∈ transferred id (fun k => if k = 0 then (6 : Int) else 3) (readv (fun k => if k = 0 then (6 : Int) else 3) 0 (iovAt (fun a : Addr => if a.toNat < 32 then BitVec.ofNat 8 ((if a.toNat % 16 < 8 then 0x8000 + 0x100 * (a.toNat / 16) else 6) / 256 ^ (a.toNat % 8)) else 0) 0) 2).2 0, ¬Touches 0 (16 * (2 : Int).toNat) a) ∧
    (∀ k j, (fun k j => (transferred (fun a : Addr => if a.toNat < 48 then BitVec.ofNat 8 ((if a.toNat % 16 < 8 then 0x1000 + 0x100 * (a.toNat / 16) else 4) / 256 ^ (a.toNat % 8)) else BitVec.setWidth 8 a) (fun _ => (4 : Int)) (writev (fun _ => (4 : Int)) 1 (iovAt (fun a : Addr => if a.toNat < 48 then BitVec.ofNat 8 ((if a.toNat % 16 < 8 then 0x1000 + 0x100 * (a.toNat / 16) else 4) / 256 ^ (a.toNat % 8)) else BitVec.setWidth 8 a) 0) 3).2 0).getD (done (fun k => if k = 0 then (6 : Int) else 3) k + j) 0) k j = (transferred (fun a : Addr => if a.toNat < 48 then BitVec.ofNat 8 ((if a.toNat % 16 < 8 then 0x1000 + 0x100 * (a.toNat / 16) else 4) / 256 ^ (a.toNat % 8)) else BitVec.setWidth 8 a) (fun _ => (4 : Int)) (writev (fun _ => (4 : Int)) 1 (iovAt (fun a : Addr => if a.toNat < 48 then BitVec.ofNat 8 ((if a.toNat % 16 < 8 then 0x1000 + 0x100 * (a.toNat / 16) else 4) / 256 ^ (a.toNat % 8)) else BitVec.setWidth 8 a) 0) 3).2 0).getD (done (fun k => if k = 0 then (6 : Int) else 3) k + j) 0) ∧
    (readv (fun k => if k = 0 then (6 : Int) else 3) 0 (iovAt (fun a : Addr => if a.toNat < 32 then BitVec.ofNat 8 ((if a.toNat % 16 < 8 then 0x8000 + 0x100 * (a.toNat / 16) else 6) / 256 ^ (a.toNat % 8)) else 0) 0) 2).1.toNat ≤ (transferred (fun a : Addr => if a.toNat < 48 then BitVec.ofNat 8 ((if a.toNat % 16 < 8 then 0x1000 + 0x100 * (a.toNat / 16) else 4) / 256 ^ (a.toNat % 8)) else BitVec.setWidth 8 a) (fun _ => (4 : Int)) (writev (fun _ => (4 : Int)) 1 (iovAt (fun a : Addr => if a.toNat < 48 then BitVec.ofNat 8 ((if a.toNat % 16 < 8 then 0x1000 + 0x100 * (a.toNat / 16) else 4) / 256 ^ (a.toNat % 8)) else BitVec.setWidth 8 a) 0) 3).2 0).length ∧
    (gathered (readvAt (fun k => if k = 0 then (6 : Int) else 3) (fun k j => (transferred (fun a : Addr => if a.toNat < 48 then BitVec.ofNat 8 ((if a.toNat % 16 < 8 then 0x1000 + 0x100 * (a.toNat / 16) else 4) / 256 ^ (a.toNat % 8)) else BitVec.setWidth 8 a) (fun _ => (4 : Int)) (writev (fun _ => (4 : Int)) 1 (iovAt (fun a : Addr => if a.toNat < 48 then BitVec.ofNat 8 ((if a.toNat % 16 < 8 then 0x1000 + 0x100 * (a.toNat / 16) else 4) / 256 ^ (a.toNat % 8)) else BitVec.setWidth 8 a) 0) 3).2 0).getD (done (fun k => if k = 0 then (6 : Int) else 3) k + j) 0) 0 0 2 (fun a : Addr => if a.toNat < 32 then BitVec.ofNat 8 ((if a.toNat % 16 < 8 then 0x8000 + 0x100 * (a.toNat / 16) else 6) / 256 ^ (a.toNat % 8)) else 0)).2.2 (iovAt (fun a : Addr => if a.toNat < 32 then BitVec.ofNat 8 ((if a.toNat % 16 < 8 then 0x8000 + 0x100 * (a.toNat / 16) else 6) / 256 ^ (a.toNat % 8)) else 0) 0) (2 : Int).toNat).take (readvAt (fun k => if k = 0 then (6 : Int) else 3) (fun k j => (transferred (fun a : Addr => if a.toNat < 48 then BitVec.ofNat 8 ((if a.toNat % 16 < 8 then 0x1000 + 0x100 * (a.toNat / 16) else 4) / 256 ^ (a.toNat % 8)) else BitVec.setWidth 8 a) (fun _ => (4 : Int)) (writev (fun _ => (4 : Int)) 1 (iovAt (fun a : Addr => if a.toNat < 48 then BitVec.ofNat 8 ((if a.toNat % 16 < 8 then 0x1000 + 0x100 * (a.toNat / 16) else 4) / 256 ^ (a.toNat % 8)) else BitVec.setWidth 8 a) 0) 3).2 0).getD (done (fun k => if k = 0 then (6 : Int) else 3) k + j) 0) 0 0 2 (fun a : Addr => if a.toNat < 32 then BitVec.ofNat 8 ((if a.toNat % 16 < 8 then 0x8000 + 0x100 * (a.toNat / 16) else 6) / 256 ^ (a.toNat % 8)) else 0)).1.toNat =
      (gathered (fun a : Addr => if a.toNat < 48 then BitVec.ofNat 8 ((if a.toNat % 16 < 8 then 0x1000 + 0x100 * (a.toNat / 16) else 4) / 256 ^ (a.toNat % 8)) else BitVec.setWidth 8 a) (iovAt (fun a : Addr => if a.toNat < 48 then BitVec.ofNat 8 ((if a.toNat % 16 < 8 then 0x1000 + 0x100 * (a.toNat / 16) else 4) / 256 ^ (a.toNat % 8)) else BitVec.setWidth 8 a) 0) (3 : Int).toNat).take (readvAt (fun k => if k = 0 then (6 : Int) else 3) (fun k j => (transferred (fun a : Addr => if a.toNat < 48 then BitVec.ofNat 8 ((if a.toNat % 16 < 8 then 0x1000 + 0x100 * (a.toNat / 16) else 4) / 256 ^ (a.toNat % 8)) else BitVec.setWidth 8 a) (fun _ => (4 : Int)) (writev (fun _ => (4 : Int)) 1 (iovAt (fun a : Addr => if a.toNat < 48 then BitVec.ofNat 8 ((if a.toNat % 16 < 8 then 0x1000 + 0x100 * (a.toNat / 16) else 4) / 256 ^ (a.toNat % 8)) else BitVec.setWidth 8 a) 0) 3).2 0).getD (done (fun k => if k = 0 then (6 : Int) else 3) k + j) 0) 0 0 2 (fun a : Addr => if a.toNat < 32 then BitVec.ofNat 8 ((if a.toNat % 16 < 8 then 0x8000 + 0x100 * (a.toNat / 16) else 6) / 256 ^ (a.toNat % 8)) else 0)).1.toNat :=
  ⟨by decide, by decide, by decide, by decide, by decide, @of_decide_eq_true _ (List.decidableBAll _ _) rfl, fun _ _ => rfl, by decide,
    pipe_round_trip _ _ _ _ _ _ _ _ _ _ _ (by decide) (by decide) (by decide) (by decide) (by decide)
      (@of_decide_eq_true _ (List.decidableBAll _ _) rfl) (fun _ _ => rfl) (by decide)⟩

end StubLibc.VectorIo
