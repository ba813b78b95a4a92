import Mathlib.Algebra.BigOperators.Fin
import Nvr.Lib.Slot
import Nvr.Storage.RecordQuery

/-!
# The answer to a query is a prefix of the sorted results

Two walks carry this. The callback keeps one sorted list for each channel, so
that in the end it has the results of that channel and no others
(`list_reported`). The copy is followed by `Assembled`: what the segment has is
always the first `queryRoom` of the results that were offered so far, whether or
not it became full on the way, and the header counts them. A full segment stops
the copy for all channels, and that is what keeps it a prefix of the whole.

The sizes are words, and the comparison with the size of the segment is one of
words too. It does not wrap round because the segment is mapped: there is no room
below the end of the address space for one that is within a record of 4 GB.
-/

namespace Nvr.Storage

open Slot

/-! ## The lists -/

instance : Std.Total Earlier :=
  ⟨fun a b => Int32.le_total a.beginTime b.beginTime⟩

instance : IsTrans RecordQueryInfo Earlier :=
  ⟨fun _ _ _ hab hbc => Int32.le_trans hab hbc⟩

/-- The results of one channel. -/
def ofChn (chn : Chn) (reports : List RecordQueryInfo) : List RecordQueryInfo :=
  reports.filter (·.chn = chnWord chn)

/-- What the disks report when they are asked. -/
def reported (openNum : Int32) (dm : List (Option (List RecordQueryInfo))) :
    List RecordQueryInfo :=
  if openNum = 0 then [] else (dm.filterMap id).flatten

theorem strgMngQuery_eq (openNum : Int32) (dm : List (Option (List RecordQueryInfo)))
    (q : RecordQueryList) :
    (strgMngQuery openNum dm q).2 = (reported openNum dm).foldl strgRecordQueryCb q := by
  unfold strgMngQuery reported
  split
  · rfl
  · show dm.foldl _ q = _
    induction dm generalizing q with
    | nil => rfl
    | cons disk dm ih =>
      cases disk with
      | none => simpa using ih q
      | some reports =>
        have hcons : (List.filterMap id (some reports :: dm)).flatten =
            reports ++ (List.filterMap id dm).flatten := by simp
        rw [List.foldl_cons, ih, hcons, List.foldl_append]

theorem list_foldl (reports : List RecordQueryInfo) (q : RecordQueryList) (chn : Chn) :
    (reports.foldl strgRecordQueryCb q).list (chnWord chn) =
      (ofChn chn reports).foldl (fun l rqi => l.orderedInsert Earlier rqi)
        (q.list (chnWord chn)) := by
  induction reports generalizing q with
  | nil => rfl
  | cons rqi reports ih =>
    rw [List.foldl_cons, ih]
    by_cases hchn : rqi.chn = chnWord chn
    · simp [ofChn, strgRecordQueryCb, hchn]
    · simp [ofChn, strgRecordQueryCb, hchn, Function.update_of_ne (Ne.symm hchn)]

/-- The callback sorts by insertion. -/
theorem list_reported (reports : List RecordQueryInfo) (chn : Chn) :
    (reports.foldl strgRecordQueryCb .empty).list (chnWord chn) =
      (ofChn chn reports).reverse.insertionSort Earlier := by
  rw [list_foldl, List.insertionSort, List.foldr_reverse]
  rfl

/-- A list of results in order that has each of `reports` as often as it is. -/
structure SortedOf (sorted reports : List RecordQueryInfo) : Prop where
  perm : sorted.Perm reports
  earlier : sorted.Pairwise (fun a b => a.beginTime ≤ b.beginTime)

theorem sortedOf_list (reports : List RecordQueryInfo) (chn : Chn) :
    SortedOf ((reports.foldl strgRecordQueryCb .empty).list (chnWord chn))
      (ofChn chn reports) := by
  rw [list_reported]
  exact ⟨(List.perm_insertionSort _ _).trans (List.reverse_perm _),
    List.pairwise_insertionSort Earlier _⟩

theorem SortedOf.chn_eq {sorted reports : List RecordQueryInfo} {chn : Chn}
    (h : SortedOf sorted (ofChn chn reports)) {rqi : RecordQueryInfo} (hmem : rqi ∈ sorted) :
    rqi.chn = chnWord chn := by
  have hof : rqi ∈ ofChn chn reports := h.perm.subset hmem
  simpa using (List.mem_filter.1 hof).2

/-! ## The copy -/

/-- How many results there is room for in a segment of `size` bytes. -/
def queryRoom (size : Nat) : Nat :=
  (size - recordQueryChnInfoLen.toNat) / recordQueryInfoLen.toNat

/-- The copy has been offered `offered`, for a segment that had `before`. -/
structure Assembled (room : Nat) (before : QueryShm) (offered : List RecordQueryInfo)
    (a : Assembly) : Prop where
  num : a.rqiNum.toInt = (offered.take room).length
  has : ∀ i, a.shm.queryInfo i = (offered.take room).getD i (before.queryInfo i)
  counts : ∀ k : Fin 32, (a.shm.queryInfoNum k).toInt =
    (offered.take room).countP (·.chn = Int32.ofNat k)
  full : a.fullFlag → room ≤ offered.length

section Copy

variable {size : UInt32} {before : QueryShm} {offered : List RecordQueryInfo} {a : Assembly}

theorem queryRoom_le (hsize : recordQueryChnInfoLen.toNat ≤ size.toNat) :
    132 + 40 * queryRoom size.toNat ≤ size.toNat := by
  have h : recordQueryChnInfoLen.toNat = 132 := rfl
  have h' : recordQueryInfoLen.toNat = 40 := rfl
  rw [queryRoom, h, h']
  omega

/-- The header and one more result need more than the segment has exactly when
there is no room for one. -/
theorem needs_gt_iff (hmapped : size.toNat + 4096 ≤ 2 ^ 32)
    (hsize : recordQueryChnInfoLen.toNat ≤ size.toNat) {n : Nat} (hn : a.rqiNum.toInt = n)
    (hle : n ≤ queryRoom size.toNat) :
    a.needs > size.toInt32.toUInt32 ↔ n = queryRoom size.toNat := by
  have hchn : recordQueryChnInfoLen.toNat = 132 := rfl
  have hinfo : recordQueryInfoLen.toNat = 40 := rfl
  have hroom := queryRoom_le hsize
  have hword : (a.rqiNum + 1).toInt = n + 1 := by
    have hone : (1 : Int32).toInt = 1 := rfl
    rw [Int32.toInt_add_of_range (by omega) (by omega), hn, hone]
  have hnat : (a.rqiNum + 1).toUInt32.toNat = n + 1 := by
    rw [Int32.toNat_toUInt32_of_nonneg (by omega), hword]
    omega
  have hmul : (recordQueryInfoLen * (a.rqiNum + 1).toUInt32).toNat = 40 * (n + 1) := by
    rw [UInt32.toNat_mul, hnat, hinfo, Nat.mod_eq_of_lt (by omega)]
  have hneeds : a.needs.toNat = 132 + 40 * (n + 1) := by
    unfold Assembly.needs
    rw [UInt32.toNat_add_of_lt' (by rw [hchn, hmul]; omega), hchn, hmul]
  rw [UInt32.toUInt32_toInt32, gt_iff_lt, UInt32.lt_iff_toNat_lt, hneeds]
  unfold queryRoom at hle hroom ⊢
  rw [hinfo, hchn] at hle hroom ⊢
  omega

theorem chnWord_inj : ∀ {c d : Chn}, chnWord c = chnWord d ↔ c = d := by
  decide +kernel

theorem chnWord_eq_ofNat_iff : ∀ (chn : Chn) (k : Fin 32),
    chnWord chn = Int32.ofNat k ↔ k = chn.castLE (by decide) := by
  decide +kernel

/-- What has no room is not copied. -/
theorem Assembled.skip {room : Nat} (h : Assembled room before offered a)
    (hfull : room ≤ offered.length) (more : List RecordQueryInfo) :
    Assembled room before (offered ++ more) a := by
  have htake : (offered ++ more).take room = offered.take room :=
    List.take_append_of_le_length hfull
  refine ⟨?_, ?_, ?_, fun _ => ?_⟩
  · rw [htake]
    exact h.num
  · rw [htake]
    exact h.has
  · rw [htake]
    exact h.counts
  · rw [List.length_append]
    omega

/-- What has room is. -/
theorem Assembled.put {room : Nat} (h : Assembled room before offered a)
    (hlt : offered.length < room) (hroom : room < 2 ^ 31 - 1) {chn : Chn}
    {rqi : RecordQueryInfo} (hchn : rqi.chn = chnWord chn) :
    Assembled room before (offered ++ [rqi]) (a.put chn rqi) := by
  have hold : offered.take room = offered := List.take_of_length_le (by omega)
  have hnew : (offered ++ [rqi]).take room = offered ++ [rqi] :=
    List.take_of_length_le (by simp; omega)
  have hnum := h.num
  have hhas := h.has
  have hcounts := h.counts
  rw [hold] at hnum hhas hcounts
  have hone : (1 : Int32).toInt = 1 := rfl
  refine ⟨?_, fun i => ?_, fun k => ?_, fun hflag => ?_⟩
  · rw [hnew]
    show (a.rqiNum + 1).toInt = _
    rw [Int32.toInt_add_of_range (by omega) (by omega), hnum, hone]
    simp
  · rw [hnew]
    show Function.update a.shm.queryInfo a.rqiNum.toInt.toNat rqi i = _
    rw [hnum]
    by_cases hi : i = offered.length
    · simp [hi]
    · rw [Function.update_of_ne (by simpa using hi), hhas]
      simp [List.getElem?_append]
      grind
  · rw [hnew, List.countP_append]
    show (Function.update a.shm.queryInfoNum _ _ k).toInt = _
    have hcount : (offered.countP (·.chn = Int32.ofNat k) : Int) ≤ offered.length := by
      exact_mod_cast List.countP_le_length
    by_cases hk : k = chn.castLE (by decide)
    · subst hk
      have hword : rqi.chn = Int32.ofNat (chn.castLE (by decide : 4 ≤ 32)) := by
        rw [hchn, chnWord_eq_ofNat_iff]
      rw [Function.update_self, Int32.toInt_add_of_range, hcounts, hone]
      · simp [hword]
      all_goals rw [hcounts, hone]; omega
    · have hword : rqi.chn ≠ Int32.ofNat k := by
        rw [hchn, Ne, chnWord_eq_ofNat_iff]
        exact hk
      rw [Function.update_of_ne hk, hcounts]
      simp [hword]
  · have hle := h.full hflag
    omega

/-- The loop over one list offers all of it. -/
theorem Assembled.copyChn (hmapped : size.toNat + 4096 ≤ 2 ^ 32)
    (hsize : recordQueryChnInfoLen.toNat ≤ size.toNat) {chn : Chn}
    {l : List RecordQueryInfo} (hchn : ∀ rqi ∈ l, rqi.chn = chnWord chn)
    (h : Assembled (queryRoom size.toNat) before offered a) :
    Assembled (queryRoom size.toNat) before (offered ++ l)
      (Storage.copyChn size.toInt32 chn l a) := by
  have hroom := queryRoom_le hsize
  induction l generalizing offered a with
  | nil => simpa [Storage.copyChn] using h
  | cons rqi rest ih =>
    have hneeds := needs_gt_iff hmapped hsize h.num (by simp)
    rw [Storage.copyChn]
    split
    · next hflag => exact h.skip (h.full hflag) _
    · split
      · next hgt =>
          have heq := hneeds.1 hgt
          have hfull : queryRoom size.toNat ≤ offered.length := by
            rw [List.length_take] at heq
            omega
          have hskip := h.skip hfull (rqi :: rest)
          exact ⟨hskip.num, hskip.has, hskip.counts, fun _ => by simp; omega⟩
      · next hgt =>
          have hlt : offered.length < queryRoom size.toNat := by
            rw [hneeds, List.length_take] at hgt
            omega
          have hput := h.put hlt (by omega) (hchn rqi (List.mem_cons_self ..))
          have hrest := ih (fun r hr => hchn r (List.mem_cons_of_mem _ hr)) hput
          rwa [List.append_assoc] at hrest

/-- The loop over the channels offers the list of each, if those of the channels
that are not asked for are empty. -/
theorem Assembled.copyChns (hmapped : size.toNat + 4096 ≤ 2 ^ 32)
    (hsize : recordQueryChnInfoLen.toNat ≤ size.toNat) {chnMask : Int32} {q : RecordQueryList}
    (hchn : ∀ chn, ∀ rqi ∈ q.list (chnWord chn), rqi.chn = chnWord chn)
    (hmask : ∀ chn, ¬HasChn chnMask.toUInt32 chn → q.list (chnWord chn) = [])
    (h : Assembled (queryRoom size.toNat) before [] a) :
    Assembled (queryRoom size.toNat) before
      ((List.finRange maxChn).flatMap fun chn => q.list (chnWord chn))
      (Storage.copyChns size.toInt32 chnMask q a) := by
  unfold Storage.copyChns
  suffices hfrom : ∀ (chns : List Chn) {offered : List RecordQueryInfo} {a : Assembly},
      Assembled (queryRoom size.toNat) before offered a →
      Assembled (queryRoom size.toNat) before
        (offered ++ chns.flatMap fun chn => q.list (chnWord chn))
        (chns.foldl (fun a chn =>
          if HasChn chnMask.toUInt32 chn then
            Storage.copyChn size.toInt32 chn (q.list (chnWord chn)) a
          else a) a) by
    have hall := hfrom (List.finRange maxChn) h
    rwa [List.nil_append] at hall
  intro chns
  induction chns with
  | nil =>
    intro offered a h
    simpa using h
  | cons chn chns ih =>
    intro offered a h
    rw [List.foldl_cons, List.flatMap_cons, ← List.append_assoc]
    apply ih
    split
    · exact h.copyChn hmapped hsize (hchn chn)
    · next hout => simpa [hmask chn hout] using h

/-- Nothing is offered at first. -/
theorem assembled_start (room : Nat) (shm : QueryShm) :
    Assembled room shm [] ⟨shm.cleared, 0, false⟩ :=
  ⟨by simp, fun _ => by simp [QueryShm.cleared], fun _ => by simp [QueryShm.cleared],
    fun hflag => by cases hflag⟩

end Copy

/-! ## The answer -/

/-- Results of the channels are counted channel by channel. -/
theorem length_eq_sum_ofChn {reports : List RecordQueryInfo}
    (h : ∀ rqi ∈ reports, ∃ chn, rqi.chn = chnWord chn) :
    reports.length = ∑ chn, (ofChn chn reports).length := by
  induction reports with
  | nil => simp [ofChn]
  | cons rqi reports ih =>
    obtain ⟨chn, hchn⟩ := h rqi (List.mem_cons_self ..)
    have hone : ∀ c, (ofChn c (rqi :: reports)).length =
        (ofChn c reports).length + if c = chn then 1 else 0 := by
      intro c
      by_cases hc : c = chn
      · simp [ofChn, hchn, hc]
      · have hword : rqi.chn ≠ chnWord c := by
          rw [hchn, Ne, chnWord_inj]
          exact Ne.symm hc
        simp [ofChn, hword, hc]
    rw [Finset.sum_congr rfl fun c _ => hone c, Finset.sum_add_distrib,
      ← ih fun r hr => h r (List.mem_cons_of_mem _ hr)]
    simp

/-- What a client finds in a segment of `size` bytes that had `before`, when
`sorted` has the results of each channel. -/
structure Answered (size : Nat) (before after : QueryShm)
    (sorted : Chn → List RecordQueryInfo) (written : List RecordQueryInfo) : Prop where
  cut : written = ((List.finRange maxChn).flatMap sorted).take (queryRoom size)
  inside : recordQueryChnInfoLen.toNat + recordQueryInfoLen.toNat * written.length ≤ size
  has : ∀ i, after.queryInfo i = written.getD i (before.queryInfo i)
  counts : ∀ chn : Chn, (after.queryInfoNum (chn.castLE (by decide))).toInt =
    (ofChn chn written).length
  whole : recordQueryChnInfoLen.toNat + recordQueryInfoLen.toNat *
    ((List.finRange maxChn).flatMap sorted).length ≤ size →
      written = (List.finRange maxChn).flatMap sorted

/-- A query copies what the segment has room for of the sorted results, and
returns how many there are. -/
theorem strgRecordQuery_answers (segment : QuerySegment)
    (hsize : recordQueryChnInfoLen.toNat ≤ segment.segsz.toNat) {chnMask : Int32}
    (hmask : chnMask < 1 <<< Int32.ofNat maxChn ∧ chnMask ≠ 0) (openNum : Int32)
    (dm : List (Option (List RecordQueryInfo)))
    (hasked : ∀ rqi ∈ reported openNum dm,
      ∃ chn, rqi.chn = chnWord chn ∧ HasChn chnMask.toUInt32 chn) :
    ∃ (num : Int32) (answer : QuerySegment) (sorted : Chn → List RecordQueryInfo)
      (written : List RecordQueryInfo),
      strgRecordQuery false chnMask (some segment) openNum dm = (num, some answer) ∧
      (∀ chn, SortedOf (sorted chn) (ofChn chn (reported openNum dm))) ∧
      Answered segment.segsz.toNat segment.shm answer.shm sorted written ∧
      num.toInt = ∑ chn : Chn, (answer.shm.queryInfoNum (chn.castLE (by decide))).toInt := by
  set reports := reported openNum dm with hreports
  set q := reports.foldl strgRecordQueryCb .empty with hq
  set room := queryRoom segment.segsz.toNat with hroom
  set whole := (List.finRange maxChn).flatMap fun chn => q.list (chnWord chn) with hwhole
  have hsorted : ∀ chn, SortedOf (q.list (chnWord chn)) (ofChn chn reports) :=
    sortedOf_list reports
  have hmapped : segment.segsz.toNat + 4096 ≤ 2 ^ 32 := by
    have hpage := segment.mapped
    have hfits := segment.fits
    omega
  have hnone : ∀ chn, ¬HasChn chnMask.toUInt32 chn → q.list (chnWord chn) = [] := by
    intro chn hout
    have hempty : ofChn chn reports = [] := by
      refine List.filter_eq_nil_iff.2 fun rqi hmem hchn => ?_
      obtain ⟨c, hc, hin⟩ := hasked rqi hmem
      have heq : c = chn := by simpa [hc, chnWord_inj] using hchn
      exact hout (heq ▸ hin)
    have hperm := (hsorted chn).perm
    rw [hempty] at hperm
    exact hperm.eq_nil
  have hdone : Assembled room segment.shm whole
      (copyChns segment.segsz.toInt32 chnMask q ⟨segment.shm.cleared, 0, false⟩) :=
    (assembled_start room segment.shm).copyChns hmapped hsize
      (fun chn rqi hmem => (hsorted chn).chn_eq hmem) hnone
  set a := copyChns segment.segsz.toInt32 chnMask q ⟨segment.shm.cleared, 0, false⟩ with ha
  have hcounts : ∀ chn : Chn, (a.shm.queryInfoNum (chn.castLE (by decide))).toInt =
      (ofChn chn (whole.take room)).length := by
    intro chn
    rw [hdone.counts, List.countP_eq_length_filter]
    rfl
  have hle := queryRoom_le hsize
  have hchn : recordQueryChnInfoLen.toNat = 132 := rfl
  have hinfo : recordQueryInfoLen.toNat = 40 := rfl
  refine ⟨a.rqiNum, { segment with shm := a.shm }, fun chn => q.list (chnWord chn),
    whole.take room, ?_, hsorted, ⟨rfl, ?_, hdone.has, hcounts, fun hfits => ?_⟩, ?_⟩
  · rw [strgRecordQuery, if_neg (not_not.2 hmask), if_neg Bool.false_ne_true, ha, hq, hreports,
      ← strgMngQuery_eq]
  · have hlen : (whole.take room).length ≤ room := List.length_take_le _ _
    rw [hchn, hinfo]
    omega
  · refine List.take_of_length_le ?_
    rw [hroom, queryRoom, hchn, hinfo]
    rw [hchn, hinfo] at hfits
    change 132 + 40 * whole.length ≤ _ at hfits
    omega
  · rw [hdone.num, length_eq_sum_ofChn]
    · push_cast
      exact Finset.sum_congr rfl fun chn _ => (hcounts chn).symm
    · intro rqi hmem
      obtain ⟨chn, -, hin⟩ := List.mem_flatMap.1 (List.mem_of_mem_take hmem)
      exact ⟨chn, (hsorted chn).chn_eq hin⟩

/-- A result of a channel that begins at a time. -/
def reportOf (chn : Chn) (beginTime : Int32) : RecordQueryInfo :=
  { (default : RecordQueryInfo) with chn := chnWord chn, beginTime := beginTime }

/-- Two disks that report three results, and one that is not mounted. -/
def threeReports : List (Option (List RecordQueryInfo)) :=
  [some [reportOf 2 9, reportOf 0 5], none, some [reportOf 0 3]]

/-- A segment with room for two results. -/
def twoRooms : QuerySegment where
  addr := 4096
  segsz := 222
  shm := ⟨0, fun _ => 0, fun _ => default⟩
  mapped := by decide
  fits := by decide

theorem strgRecordQuery_answers_two :
    ∃ (num : Int32) (answer : QuerySegment) (sorted : Chn → List RecordQueryInfo)
      (written : List RecordQueryInfo),
      strgRecordQuery false 5 (some twoRooms) 2 threeReports = (num, some answer) ∧
      (∀ chn, SortedOf (sorted chn) (ofChn chn (reported 2 threeReports))) ∧
      Answered twoRooms.segsz.toNat twoRooms.shm answer.shm sorted written ∧
      num.toInt = ∑ chn : Chn, (answer.shm.queryInfoNum (chn.castLE (by decide))).toInt :=
  strgRecordQuery_answers twoRooms (by decide) (by decide) 2 threeReports (by decide +kernel)

example : ((strgRecordQuery false 5 (some twoRooms) 2 threeReports).2.map
    fun answer => (List.range 3).map answer.shm.queryInfo) =
      some [reportOf 0 3, reportOf 0 5, default] := by
  decide +kernel

end Nvr.Storage
