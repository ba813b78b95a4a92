import Mathlib.Data.List.Nodup
import Nvr.Lib.Run
import Nvr.Ipnc.Search

/-!
# The users of a search

Each user of a search is given every device of the list once, in the order of
the list, and the list is freed when there is no user. A slot that is not
occupied has no node, which is what its next user relies on; the table's own
loops take handle 0 for such a slot, so that a call with it would change one.
-/

namespace Nvr.NetSearch

/-! ## The slots of a handle -/

/-- The slots with a handle, in the order of the table. -/
def slots (table : List UserTable) (lHandle : Int) : List UserTable :=
  table.filter (·.lHandle = lHandle)

theorem slots_middle (before after : List UserTable) (u : UserTable) (h : Int) :
    slots (before ++ u :: after) h =
      slots before h ++ (if u.lHandle = h then [u] else []) ++ slots after h := by
  unfold slots
  rw [List.filter_append, List.filter_cons]
  split <;> simp_all

/-- The slots of the other handles are not concerned. -/
theorem slots_middle_of_ne (before after : List UserTable) {u v : UserTable} {h : Int}
    (hu : u.lHandle ≠ h) (hv : v.lHandle ≠ h) :
    slots (before ++ u :: after) h = slots (before ++ v :: after) h := by
  rw [slots_middle, slots_middle, if_neg hu, if_neg hv]

theorem find?_of_slots {table rest : List UserTable} {h : Int} {u : UserTable}
    (hs : slots table h = u :: rest) : table.find? (·.lHandle = h) = some u := by
  rw [← List.head?_filter]
  unfold slots at hs
  rw [hs]
  rfl

/-- The first slot of a handle, and the others. -/
theorem slots_of_firstAt {table before after : List UserTable} {h : Int} {u : UserTable}
    (hat : FirstAt (·.lHandle = h) table before u after) : slots table h = u :: slots after h :=
  hat.filter_eq

/-- The others, when the first slot is put at the place of `u`. -/
theorem slots_set_first {table before after : List UserTable} {h : Int} {u v : UserTable}
    (hat : FirstAt (·.lHandle = h) table before u after) :
    slots (before ++ v :: after) h = (if v.lHandle = h then [v] else []) ++ slots after h := by
  have hbefore : slots before h = [] := hat.filter_before
  rw [slots_middle, hbefore, List.nil_append]

/-! ## The node of a user -/

theorem nextNode_middle {before after : List Node} {n : Node}
    (h : n.addr ∉ before.map (·.addr)) : nextNode (before ++ n :: after) n.addr = some after.head? := by
  induction before with
  | nil => simp [nextNode]
  | cons m before ih =>
      rw [List.map_cons, List.mem_cons, not_or] at h
      rw [List.cons_append, nextNode, if_neg (Ne.symm h.1)]
      exact ih h.2

/-- The devices of `nodes` up to the one at `pLastNode` are those in `got`. -/
def Seen (nodes : List Node) (got : List SearchRes) (pLastNode : Option Nat) : Prop :=
  ∃ before after, nodes = before ++ after ∧ got = before.map (·.searchRes) ∧
    pLastNode = before.getLast?.map (·.addr)

theorem Seen.start (nodes : List Node) : Seen nodes [] none := ⟨[], nodes, rfl, rfl, rfl⟩

theorem Seen.got_eq_nil {nodes : List Node} {got : List SearchRes} (h : Seen nodes got none) :
    got = [] := by
  obtain ⟨before, after, -, rfl, hlast⟩ := h
  have hnone : before.getLast? = none := by
    rw [eq_comm, Option.map_eq_none_iff] at hlast
    exact hlast
  rw [List.getLast?_eq_none_iff.1 hnone]
  rfl

theorem Seen.append {nodes : List Node} {got : List SearchRes} {pLastNode : Option Nat}
    (h : Seen nodes got pLastNode) (n : Node) : Seen (nodes ++ [n]) got pLastNode := by
  obtain ⟨before, after, rfl, hgot, hlast⟩ := h
  exact ⟨before, after ++ [n], by rw [List.append_assoc], hgot, hlast⟩

/-- The pointer of a user is to a node of the list. -/
theorem Seen.mem {nodes : List Node} {got : List SearchRes} {addr : Nat}
    (h : Seen nodes got (some addr)) : addr ∈ nodes.map (·.addr) := by
  obtain ⟨before, after, rfl, -, hlast⟩ := h
  obtain ⟨n, hn, rfl⟩ := Option.map_eq_some_iff.1 hlast.symm
  exact List.mem_map_of_mem (List.mem_append_left _ (List.mem_of_getLast? hn))

theorem Seen.front {nodes : List Node} {got : List SearchRes} {pLastNode : Option Nat}
    (h : Seen nodes got pLastNode) : got <+: nodes.map (·.searchRes) := by
  obtain ⟨before, after, rfl, rfl, -⟩ := h
  rw [List.map_append]
  exact List.prefix_append _ _

/-- The node that a user is to be given is the first it has not seen. -/
theorem Seen.resNode_eq {s : Search} {got : List SearchRes} {u : UserTable}
    (h : Seen s.nodes got u.pLastNode) (haddr : (s.nodes.map (·.addr)).Nodup) :
    resNode s u = some s.nodes[got.length]? := by
  obtain ⟨before, after, hnodes, rfl, hlast⟩ := h
  have hnext : s.nodes[(before.map (·.searchRes)).length]? = after.head? := by
    rw [hnodes, List.length_map, List.getElem?_append_right (Nat.le_refl _), Nat.sub_self,
      List.head?_eq_getElem?]
  rw [hnext]
  unfold resNode
  rw [hlast]
  cases before using List.reverseRecOn with
  | nil => rw [hnodes]; rfl
  | append_singleton before n =>
      rw [hnodes, List.append_assoc]
      simp only [List.getLast?_concat, Option.map_some]
      rw [hnodes, List.append_assoc, List.map_append] at haddr
      refine nextNode_middle fun hmem => ?_
      exact (List.nodup_append.1 haddr).2.2 _ hmem _ (by simp) rfl

theorem Seen.next {nodes : List Node} {got : List SearchRes} {pLastNode : Option Nat} {n : Node}
    (h : Seen nodes got pLastNode) (hn : nodes[got.length]? = some n) :
    Seen nodes (got ++ [n.searchRes]) (some n.addr) := by
  obtain ⟨before, after, rfl, rfl, -⟩ := h
  rw [List.length_map, List.getElem?_append_right (Nat.le_refl _), Nat.sub_self] at hn
  cases after with
  | nil => simp at hn
  | cons m after =>
      obtain rfl : m = n := by simpa using hn
      exact ⟨before ++ [m], after, by simp, by simp, by simp⟩

/-! ## What is kept -/

/-- A slot that is not occupied has no node, the first slot of a handle has the
last node given under it, and its other slots have none. -/
structure TableKept (table : List UserTable) (nodes : List Node) (got : Int → List SearchRes) :
    Prop where
  free : ∀ u ∈ table, u.lHandle = 0 → u.pLastNode = none
  first : ∀ h, h ≠ 0 → ∀ u rest, slots table h = u :: rest → Seen nodes (got h) u.pLastNode
  others : ∀ h, h ≠ 0 → ∀ u rest, slots table h = u :: rest → ∀ v ∈ rest, v.pLastNode = none

/-- What every step keeps. -/
structure Kept (w : InUse) : Prop where
  counted : w.search.userCnt = (occupied w.search).length
  table : TableKept w.search.userCT w.search.nodes w.got
  freed : ∀ users ∈ w.freedUnder, users = []
  keys : (w.search.nodes.map (·.searchRes.key)).Nodup
  addrs : (w.search.nodes.map (·.addr)).Nodup
  devNum : w.search.u32DevNum = w.search.nodes.length
  reply : ∀ n ∈ w.reply, n.searchRes.key ∉ w.search.nodes.map (·.searchRes.key) ∧
    n.addr ∉ w.search.nodes.map (·.addr)

theorem occupied_nil_slots {s : Search} (h : occupied s = []) {k : Int} (hk : k ≠ 0) :
    slots s.userCT k = [] := by
  refine List.filter_eq_nil_iff.2 fun u hu => ?_
  have hfree := List.filter_eq_nil_iff.1 h u hu
  simp only [decide_not, Bool.not_eq_true', decide_eq_false_iff_not, not_not] at hfree
  simp only [decide_eq_true_eq]
  rw [hfree]
  exact hk.symm

/-- Without users nothing is asked of the list. -/
theorem TableKept.of_no_slots {table : List UserTable} {nodes : List Node}
    {got : Int → List SearchRes} (hfree : ∀ u ∈ table, u.lHandle = 0 → u.pLastNode = none)
    (hnone : ∀ k, k ≠ 0 → slots table k = []) : TableKept table nodes got where
  free := hfree
  first k hk u rest hs := by
    rw [hnone k hk] at hs
    cases hs
  others k hk u rest hs := by
    rw [hnone k hk] at hs
    cases hs

/-! ## A user starts -/

theorem firstAt_of_addUserTable {s s' : Search} {h : Int}
    (hadd : tiNetAddUserTable s h = some s') :
    ∃ before u after, FirstAt (·.lHandle = 0) s.userCT before u after ∧
      s' = { s with
        userCT := before ++ { u with lHandle := h } :: after, userCnt := s.userCnt + 1 } := by
  unfold tiNetAddUserTable at hadd
  split at hadd
  · cases hadd
  · obtain ⟨table, htable, rfl⟩ := Option.map_eq_some_iff.1 hadd
    obtain ⟨before, u, after, hat, rfl⟩ := FirstAt.of_onFirst htable
    exact ⟨before, u, after, hat, rfl⟩

theorem registered_eq_false {s : Search} {h : Int} :
    registered s h = false ↔ slots s.userCT h = [] := by
  unfold registered slots
  rw [List.any_eq_false, List.filter_eq_nil_iff]

/-- A new slot has no node: it is that of a new user, or one behind the slot
that the user has already, unless the user has not been given anything. -/
theorem TableKept.enter {table before after : List UserTable} {u : UserTable} {nodes : List Node}
    {got : Int → List SearchRes} {h : Int} (hkept : TableKept table nodes got) (hh : h ≠ 0)
    (hat : FirstAt (·.lHandle = 0) table before u after)
    (hagain : ∀ v rest, slots table h = v :: rest → slots before h = [] → v.pLastNode = none) :
    TableKept (before ++ { u with lHandle := h } :: after) nodes
      (if slots table h = [] then Function.update got h [] else got) := by
  have hu : u.lHandle = 0 := by simpa using hat.found
  have hnull : u.pLastNode = none := hkept.free u hat.mem hu
  have hold : slots table h = slots before h ++ slots after h := by
    rw [hat.eq, slots_middle, if_neg (by rw [hu]; exact hh.symm), List.append_nil]
  have hnew : slots (before ++ { u with lHandle := h } :: after) h =
      slots before h ++ ({ u with lHandle := h } :: slots after h) := by
    rw [slots_middle, if_pos rfl, List.append_assoc]
    rfl
  have hother : ∀ k, k ≠ 0 → k ≠ h →
      slots (before ++ { u with lHandle := h } :: after) k = slots table k := by
    intro k hk hkh
    rw [hat.eq]
    exact slots_middle_of_ne before after hkh.symm (by rw [hu]; exact hk.symm)
  have hgot : ∀ k, k ≠ h →
      (if slots table h = [] then Function.update got h [] else got) k = got k := by
    intro k hkh
    split
    · exact Function.update_of_ne hkh _ _
    · rfl
  refine ⟨?_, ?_, ?_⟩
  · intro v hv hv0
    rcases List.mem_append.1 hv with hmem | hmem
    · exact hkept.free v (by rw [hat.eq]; exact List.mem_append_left _ hmem) hv0
    · rcases List.mem_cons.1 hmem with rfl | hmem
      · exact hnull
      · refine hkept.free v ?_ hv0
        rw [hat.eq]
        exact List.mem_append_right _ (List.mem_cons_of_mem _ hmem)
  · intro k hk v rest hs
    by_cases hkh : k = h
    · subst hkh
      rw [hnew] at hs
      cases hb : slots before k with
      | cons w ws =>
          -- the user had a slot before this one
          rw [hb, List.cons_append] at hold
          rw [hb, List.cons_append, List.cons.injEq] at hs
          obtain ⟨rfl, rfl⟩ := hs
          rw [if_neg (by rw [hold]; exact List.cons_ne_nil _ _)]
          exact hkept.first k hk _ _ hold
      | nil =>
          rw [hb, List.nil_append] at hold
          rw [hb, List.nil_append, List.cons.injEq] at hs
          obtain ⟨rfl, rfl⟩ := hs
          rw [hnull]
          split
          · rw [Function.update_self]
            exact .start nodes
          · obtain ⟨w, ws, hw⟩ := List.exists_cons_of_ne_nil ‹slots table k ≠ []›
            have hseen := hkept.first k hk w ws hw
            rwa [hagain w ws hw hb] at hseen
    · rw [hother k hk hkh] at hs
      rw [hgot k hkh]
      exact hkept.first k hk v rest hs
  · intro k hk v rest hs w hw
    by_cases hkh : k = h
    · subst hkh
      rw [hnew] at hs
      cases hb : slots before k with
      | cons x xs =>
          rw [hb, List.cons_append] at hold
          rw [hb, List.cons_append, List.cons.injEq] at hs
          obtain ⟨rfl, rfl⟩ := hs
          rcases List.mem_append.1 hw with hmem | hmem
          · exact hkept.others k hk _ _ hold w (List.mem_append_left _ hmem)
          · rcases List.mem_cons.1 hmem with rfl | hmem
            · exact hnull
            · exact hkept.others k hk _ _ hold w (List.mem_append_right _ hmem)
      | nil =>
          rw [hb, List.nil_append] at hold
          rw [hb, List.nil_append, List.cons.injEq] at hs
          obtain ⟨rfl, rfl⟩ := hs
          cases hafter : slots after k with
          | nil =>
              rw [hafter] at hw
              cases hw
          | cons x xs =>
              rw [hafter] at hw hold
              rcases List.mem_cons.1 hw with rfl | hmem
              · exact hagain _ _ hold hb
              · exact hkept.others k hk _ _ hold w hmem
    · rw [hother k hk hkh] at hs
      exact hkept.others k hk v rest hs w hw

theorem occupied_enter {s : Search} {before after : List UserTable} {u : UserTable} {h : Int}
    (hh : h ≠ 0) (hat : FirstAt (·.lHandle = 0) s.userCT before u after) :
    (before ++ { u with lHandle := h } :: after).countP (·.lHandle ≠ 0) =
      (occupied s).length + 1 := by
  have hu : u.lHandle = 0 := by simpa using hat.found
  unfold occupied
  rw [← List.countP_eq_length_filter, hat.eq, List.countP_append, List.countP_append,
    List.countP_cons_of_pos (by simpa using hh), List.countP_cons_of_neg (by simpa using hu)]
  omega

/-! ## A user stops -/

theorem delUserTable_eq {s : Search} {before after : List UserTable} {u : UserTable} {h : Int}
    (hat : FirstAt (·.lHandle = h) s.userCT before u after) :
    tiNetDelUserTable s h =
      { s with userCT := before ++ ⟨0, none⟩ :: after, userCnt := s.userCnt - 1 } := by
  unfold tiNetDelUserTable
  rw [hat.onFirst_eq]

theorem delUserTable_eq_self {s : Search} {h : Int} (hs : slots s.userCT h = []) :
    tiNetDelUserTable s h = s := by
  unfold tiNetDelUserTable
  have hnone : onFirst (·.lHandle = h) (fun _ => (⟨0, none⟩ : UserTable)) s.userCT = none := by
    refine onFirst_eq_none.2 fun u hu => ?_
    simpa using List.filter_eq_nil_iff.1 hs u hu
  rw [hnone]

/-- A new user that stops at once leaves the table as it was. -/
theorem delUserTable_addUserTable {s s' : Search} {h : Int}
    (hfree : ∀ u ∈ s.userCT, u.lHandle = 0 → u.pLastNode = none) (hs : slots s.userCT h = [])
    (hadd : tiNetAddUserTable s h = some s') : tiNetDelUserTable s' h = s := by
  obtain ⟨before, u, after, hat, rfl⟩ := firstAt_of_addUserTable hadd
  have hu : u.lHandle = 0 := by simpa using hat.found
  have hnull : u.pLastNode = none := hfree u hat.mem hu
  have hslot : u = ⟨0, none⟩ := by
    cases u
    simp_all
  have hnew : FirstAt (·.lHandle = h) (before ++ { u with lHandle := h } :: after) before
      { u with lHandle := h } after := by
    refine ⟨rfl, fun b hb => ?_, by simp⟩
    have hb' := List.filter_eq_nil_iff.1 hs b (by rw [hat.eq]; exact List.mem_append_left _ hb)
    simpa using hb'
  rw [delUserTable_eq hnew, ← hslot, ← hat.eq]
  simp

/-- The slot that a user leaves has no node any more, and if the user has
another slot nothing had been given at the first one. -/
theorem TableKept.leave {table before after : List UserTable} {u : UserTable} {nodes : List Node}
    {got : Int → List SearchRes} {h : Int} (hkept : TableKept table nodes got) (hh : h ≠ 0)
    (hat : FirstAt (·.lHandle = h) table before u after)
    (hagain : slots after h ≠ [] → u.pLastNode = none) :
    TableKept (before ++ ⟨0, none⟩ :: after) nodes got := by
  have hu : u.lHandle = h := by simpa using hat.found
  have hold : slots table h = u :: slots after h := slots_of_firstAt hat
  have hnew : slots (before ++ ⟨0, none⟩ :: after) h = slots after h := by
    rw [slots_set_first hat, if_neg hh.symm, List.nil_append]
  have hother : ∀ k, k ≠ 0 → k ≠ h →
      slots (before ++ ⟨0, none⟩ :: after) k = slots table k := by
    intro k hk hkh
    rw [hat.eq]
    exact slots_middle_of_ne before after hk.symm (by rw [hu]; exact hkh.symm)
  refine ⟨?_, ?_, ?_⟩
  · intro v hv hv0
    rcases List.mem_append.1 hv with hmem | hmem
    · exact hkept.free v (by rw [hat.eq]; exact List.mem_append_left _ hmem) hv0
    · rcases List.mem_cons.1 hmem with rfl | hmem
      · rfl
      · refine hkept.free v ?_ hv0
        rw [hat.eq]
        exact List.mem_append_right _ (List.mem_cons_of_mem _ hmem)
  · intro k hk v rest hs
    by_cases hkh : k = h
    · subst hkh
      rw [hnew] at hs
      have hnull : v.pLastNode = none := hkept.others k hk _ _ hold v (by rw [hs]; simp)
      have hseen := hkept.first k hk _ _ hold
      rw [hagain (by rw [hs]; exact List.cons_ne_nil _ _)] at hseen
      rwa [hnull]
    · rw [hother k hk hkh] at hs
      exact hkept.first k hk v rest hs
  · intro k hk v rest hs w hw
    by_cases hkh : k = h
    · subst hkh
      rw [hnew] at hs
      exact hkept.others k hk _ _ hold w (by rw [hs]; exact List.mem_cons_of_mem _ hw)
    · rw [hother k hk hkh] at hs
      exact hkept.others k hk v rest hs w hw

theorem occupied_leave {s : Search} {before after : List UserTable} {u : UserTable} {h : Int}
    (hh : h ≠ 0) (hat : FirstAt (·.lHandle = h) s.userCT before u after) :
    (before ++ ⟨0, none⟩ :: after).countP (·.lHandle ≠ 0) + 1 = (occupied s).length := by
  have hu : u.lHandle = h := by simpa using hat.found
  unfold occupied
  rw [← List.countP_eq_length_filter, hat.eq, List.countP_append, List.countP_append,
    List.countP_cons_of_neg (by simp), List.countP_cons_of_pos (by simpa [hu] using hh)]
  omega

/-! ## A user is given a device -/

theorem TableKept.give {table before after : List UserTable} {u : UserTable} {nodes : List Node}
    {got : Int → List SearchRes} {h : Int} {n : Node} (hkept : TableKept table nodes got)
    (hh : h ≠ 0) (hat : FirstAt (·.lHandle = h) table before u after)
    (hn : nodes[(got h).length]? = some n) :
    TableKept (before ++ { u with pLastNode := some n.addr } :: after) nodes
      (Function.update got h (got h ++ [n.searchRes])) := by
  have hu : u.lHandle = h := by simpa using hat.found
  have hold : slots table h = u :: slots after h := slots_of_firstAt hat
  have hnew : slots (before ++ { u with pLastNode := some n.addr } :: after) h =
      { u with pLastNode := some n.addr } :: slots after h := by
    rw [slots_set_first hat, if_pos hu]
    rfl
  have hother : ∀ k, k ≠ h →
      slots (before ++ { u with pLastNode := some n.addr } :: after) k = slots table k := by
    intro k hkh
    rw [hat.eq]
    exact slots_middle_of_ne before after (by rw [← hu] at hkh; exact hkh.symm)
      (by rw [hu]; exact hkh.symm)
  refine ⟨?_, ?_, ?_⟩
  · intro v hv hv0
    rcases List.mem_append.1 hv with hmem | hmem
    · exact hkept.free v (by rw [hat.eq]; exact List.mem_append_left _ hmem) hv0
    · rcases List.mem_cons.1 hmem with rfl | hmem
      · exact absurd (hu.symm.trans hv0) hh
      · refine hkept.free v ?_ hv0
        rw [hat.eq]
        exact List.mem_append_right _ (List.mem_cons_of_mem _ hmem)
  · intro k hk v rest hs
    by_cases hkh : k = h
    · subst hkh
      rw [hnew, List.cons.injEq] at hs
      obtain ⟨rfl, rfl⟩ := hs
      rw [Function.update_self]
      exact (hkept.first k hk _ _ hold).next hn
    · rw [hother k hkh] at hs
      rw [Function.update_of_ne hkh]
      exact hkept.first k hk v rest hs
  · intro k hk v rest hs w hw
    by_cases hkh : k = h
    · subst hkh
      rw [hnew, List.cons.injEq] at hs
      obtain ⟨rfl, rfl⟩ := hs
      exact hkept.others k hk _ _ hold w hw
    · rw [hother k hkh] at hs
      exact hkept.others k hk v rest hs w hw

theorem occupied_give {s : Search} {before after : List UserTable} {u : UserTable} {h : Int}
    {pLastNode : Option Nat} (hat : FirstAt (·.lHandle = h) s.userCT before u after) :
    (before ++ { u with pLastNode } :: after).countP (·.lHandle ≠ 0) = (occupied s).length := by
  unfold occupied
  rw [← List.countP_eq_length_filter, hat.eq, List.countP_append, List.countP_append,
    List.countP_cons, List.countP_cons]

/-! ## One step -/

/-- A call with handle 0 does not meet a free slot, and a user with several slots
has been given nothing when the first of them changes. -/
def orderly (w : InUse) : Op → Bool
  | .searchDo lHandle _ =>
      match w.search.userCT.find? (fun v => v.lHandle = 0 ∨ v.lHandle = lHandle),
        w.search.userCT.find? (·.lHandle = lHandle) with
      | some v, some u => v.lHandle = lHandle || u.pLastNode = none
      | _, _ => true
  | .getSearch lHandle _ =>
      lHandle ≠ 0 || tiNetGetUserTable w.search 0 = none || w.search.nodes = []
  | .searchDone lHandle =>
      if lHandle = 0 then !registered w.search 0
      else match slots w.search.userCT lHandle with
        | u :: _ :: _ => u.pLastNode = none
        | _ => true
  | _ => true

namespace Kept

variable {w : InUse}

theorem init : Kept .init where
  counted := rfl
  table := .of_no_slots (by simp [InUse.init, tiNetSearchInit]) fun k hk => by
    refine List.filter_eq_nil_iff.2 fun u hu => ?_
    obtain rfl : u = ⟨0, none⟩ := List.eq_of_mem_replicate hu
    simpa using hk.symm
  freed := by simp [InUse.init]
  keys := .nil
  addrs := .nil
  devNum := rfl
  reply := by simp [InUse.init]

theorem occupied_eq_nil (h : Kept w) (hcnt : w.search.userCnt ≤ 0) : occupied w.search = [] := by
  have hcounted := h.counted
  exact List.eq_nil_of_length_eq_zero (by omega)

/-- When there is no user the list may be freed. -/
theorem free (h : Kept w) (hcnt : w.search.userCnt ≤ 0) : Kept (w.free w.search) where
  counted := h.counted
  table := .of_no_slots h.table.free fun k hk => occupied_nil_slots (h.occupied_eq_nil hcnt) hk
  freed users husers := by
    rcases List.mem_cons.1 husers with rfl | hmem
    · unfold handles
      rw [h.occupied_eq_nil hcnt]
      rfl
    · exact h.freed users hmem
  keys := .nil
  addrs := .nil
  devNum := rfl
  reply n hn := ⟨List.not_mem_nil, List.not_mem_nil⟩

/-- A slot that is changed leaves the list as it is. -/
theorem of_table (h : Kept w) {userCT : List UserTable} (userCnt : Int)
    {got : Int → List SearchRes} (hcnt : userCnt = userCT.countP (·.lHandle ≠ 0))
    (htable : TableKept userCT w.search.nodes got) :
    Kept { w with search := { w.search with userCT, userCnt }, got } where
  counted := by
    unfold occupied
    rw [← List.countP_eq_length_filter]
    exact hcnt
  table := htable
  freed := h.freed
  keys := h.keys
  addrs := h.addrs
  devNum := h.devNum
  reply := h.reply

/-- The slot that a start takes is behind that of the user, if it has one. -/
theorem enter (h : Kept w) {lHandle : Int} (hh : lHandle ≠ 0) (sent : Bool)
    (ho : orderly w (.searchDo lHandle sent) = true) {search : Search}
    (hadd : tiNetAddUserTable w.search lHandle = some search) : Kept (w.enter lHandle search) := by
  obtain ⟨before, u, after, hat, rfl⟩ := firstAt_of_addUserTable hadd
  have hgot : (w.enter lHandle { w.search with
      userCT := before ++ { u with lHandle } :: after, userCnt := w.search.userCnt + 1 }).got =
      if slots w.search.userCT lHandle = [] then Function.update w.got lHandle [] else w.got := by
    unfold InUse.enter
    cases hreg : registered w.search lHandle with
    | true =>
        have hslots : slots w.search.userCT lHandle ≠ [] := fun hnil => by
          rw [registered_eq_false.2 hnil] at hreg
          cases hreg
        simp [hslots]
    | false => simp [registered_eq_false.1 hreg]
  have hkept := h.of_table (w.search.userCnt + 1)
    (by rw [occupied_enter hh hat, h.counted]; rfl) (h.table.enter hh hat ?_)
  · rw [← hgot] at hkept
    exact hkept
  · intro v rest hs hbefore
    have hu : u.lHandle = 0 := by simpa using hat.found
    have hfirst : FirstAt (fun x => x.lHandle = 0 ∨ x.lHandle = lHandle) w.search.userCT before u
        after := by
      refine ⟨hat.eq, fun b hb => ?_, by simp [hu]⟩
      have hb0 := hat.skipped b hb
      have hbh := List.filter_eq_nil_iff.1 hbefore b hb
      simp_all
    simp only [orderly] at ho
    rw [hfirst.find?_eq, find?_of_slots hs] at ho
    simpa [hu, hh.symm] using ho

theorem searchDo (h : Kept w) {lHandle : Int} (hh : lHandle ≠ 0) {sent : Bool}
    (ho : orderly w (.searchDo lHandle sent) = true) : Kept (w.tiNetSearchDo lHandle sent) := by
  unfold InUse.tiNetSearchDo
  split
  · split
    · exact h.enter hh sent ho ‹_›
    · exact h
  · have hfree : Kept (w.free w.search) := h.free (by omega)
    dsimp only
    split
    · rename_i search hadd
      split
      · exact hfree.enter hh sent ho hadd
      · have hdel : tiNetDelUserTable search lHandle = (w.free w.search).search :=
          delUserTable_addUserTable hfree.table.free
            (occupied_nil_slots (h.occupied_eq_nil (by omega)) hh) hadd
        rw [hdel]
        exact hfree
    · exact hfree

theorem done (h : Kept w) {lHandle : Int} (ho : orderly w (.searchDone lHandle) = true) :
    Kept (w.tiNetSearchDone lHandle) := by
  have hdel : Kept { w with search := tiNetDelUserTable w.search lHandle } := by
    cases hs : slots w.search.userCT lHandle with
    | nil =>
        rw [delUserTable_eq_self hs]
        exact h
    | cons u rest =>
        have hh : lHandle ≠ 0 := by
          rintro rfl
          simp only [orderly, if_true, Bool.not_eq_true'] at ho
          rw [registered_eq_false.1 ho] at hs
          cases hs
        obtain ⟨before, after, hat⟩ := FirstAt.of_find? (find?_of_slots hs)
        rw [delUserTable_eq hat]
        have hcount := occupied_leave hh hat
        refine h.of_table _ ?_ (h.table.leave hh hat fun hagain => ?_)
        · rw [h.counted, ← hcount]
          simp
        · obtain ⟨v, vs, hv⟩ := List.exists_cons_of_ne_nil hagain
          simp only [orderly, hh, if_false] at ho
          rw [slots_of_firstAt hat, hv] at ho
          simpa using ho
  unfold InUse.tiNetSearchDone
  dsimp only
  split
  · exact hdel.free ‹_›
  · exact hdel

theorem getSearch_eq (h : Kept w) {lHandle : Int} (hh : lHandle ≠ 0) {u : UserTable}
    (hu : tiNetGetUserTable w.search lHandle = some u) (pDev : IpncRes) :
    ∃ before after, FirstAt (·.lHandle = lHandle) w.search.userCT before u after ∧
      tiNetGetSearch w.search lHandle pDev =
        match w.search.nodes[(w.got lHandle).length]? with
        | none => (.nothing, w.search)
        | some n => (.dev (tiGetSearchInfoTi2ipnc pDev n.searchRes),
            { w.search with
              userCT := before ++ { u with pLastNode := some n.addr } :: after }) := by
  have hfind : w.search.userCT.find? (·.lHandle = lHandle) = some u := by
    unfold tiNetGetUserTable at hu
    split at hu
    · cases hu
    · exact hu
  obtain ⟨before, after, hat⟩ := FirstAt.of_find? hfind
  refine ⟨before, after, hat, ?_⟩
  have hseen := h.table.first _ hh _ _ (slots_of_firstAt hat)
  unfold tiNetGetSearch
  simp only [hu, hseen.resNode_eq h.addrs]
  split
  · rename_i hnil
    simp [hnil]
  · cases w.search.nodes[(w.got lHandle).length]? with
    | none => rfl
    | some n =>
        dsimp only
        rw [hat.onFirst_eq]
        rfl

theorem get (h : Kept w) {lHandle : Int} {pDev : IpncRes}
    (ho : orderly w (.getSearch lHandle pDev) = true) : Kept (w.get lHandle pDev) := by
  cases hu : tiNetGetUserTable w.search lHandle with
  | none =>
      unfold InUse.get tiNetGetSearch
      simp only [hu]
      exact h
  | some u =>
      by_cases hh : lHandle = 0
      · subst hh
        have hnil : w.search.nodes = [] := by simpa [orderly, hu] using ho
        unfold InUse.get tiNetGetSearch
        simp only [hu, hnil, if_true]
        exact h
      · obtain ⟨before, after, hat, heq⟩ := h.getSearch_eq hh hu pDev
        unfold InUse.get
        rw [heq]
        cases hn : w.search.nodes[(w.got lHandle).length]? with
        | none => exact h
        | some n =>
            refine h.of_table _ ?_ (h.table.give hh hat hn)
            rw [occupied_give hat, h.counted]

theorem addToList (h : Kept w) {n : Node} (hn : w.reply = some n) :
    Kept { w with search := tiNetSearchAddToList w.search n, reply := none } where
  counted := h.counted
  table :=
    { free := h.table.free
      first := fun k hk u rest hs => (h.table.first k hk u rest hs).append n
      others := h.table.others }
  freed := h.freed
  keys := by
    have hnew := (h.reply n hn).1
    show ((w.search.nodes ++ [n]).map _).Nodup
    rw [List.map_append]
    exact List.Nodup.append h.keys (List.nodup_singleton _) (List.disjoint_singleton.2 hnew)
  addrs := by
    have hnew := (h.reply n hn).2
    show ((w.search.nodes ++ [n]).map _).Nodup
    rw [List.map_append]
    exact List.Nodup.append h.addrs (List.nodup_singleton _) (List.disjoint_singleton.2 hnew)
  devNum := by
    show w.search.u32DevNum + 1 = ((w.search.nodes ++ [n]).length : Int)
    rw [h.devNum, List.length_append]
    rfl
  reply := by simp

theorem setDev (h : Kept w) {pDev : SearchRes} {addr : Nat}
    (hfind : tiNetSearchListFind w.search pDev = false)
    (haddr : addr ∉ w.search.nodes.map (·.addr)) :
    Kept { w with reply := some ⟨addr, pDev⟩ } where
  counted := h.counted
  table := h.table
  freed := h.freed
  keys := h.keys
  addrs := h.addrs
  devNum := h.devNum
  reply n hn := by
    obtain rfl := Option.some.inj hn
    refine ⟨fun hmem => ?_, haddr⟩
    obtain ⟨m, hm, hkey⟩ := List.mem_map.1 hmem
    have hdiff := List.any_eq_false.1 hfind m hm
    simp [hkey] at hdiff

theorem step (h : Kept w) {op : Op} {w' : InUse} (hstep : Step w op w')
    (ho : orderly w op = true) : Kept w' := by
  unfold Step NetSearch.step at hstep
  cases op with
  | searchDo lHandle sent =>
      dsimp only at hstep
      split at hstep
      · cases hstep
      · obtain rfl := Option.some.inj hstep
        exact h.searchDo ‹_› ho
  | getSearch lHandle pDev =>
      obtain rfl := Option.some.inj hstep
      exact h.get ho
  | searchDone lHandle =>
      obtain rfl := Option.some.inj hstep
      exact h.done ho
  | setDev pDev mem =>
      dsimp only at hstep
      split at hstep
      · cases hstep
      split at hstep
      · obtain rfl := Option.some.inj hstep
        exact h
      rename_i hfind
      cases mem with
      | none =>
          obtain rfl := Option.some.inj hstep
          exact h
      | some addr =>
          dsimp only at hstep
          split at hstep
          · cases hstep
          · obtain rfl := Option.some.inj hstep
            exact h.setDev (by simpa using hfind) ‹_›
  | addToList =>
      obtain ⟨n, hn, rfl⟩ := Option.map_eq_some_iff.1 hstep
      exact h.addToList hn

end Kept

/-! ## Whole runs -/

/-- The search is right for all its users: they are counted, the list was only
freed when there was none, so that they have no freed node, a device is listed
once, and each user has been given the devices in the order of the list and will
be given the next one. -/
structure Isolated (w : InUse) : Prop where
  counted : w.search.userCnt = (occupied w.search).length
  freed : ∀ users ∈ w.freedUnder, users = []
  live : ∀ u ∈ occupied w.search, ∀ addr, u.pLastNode = some addr →
    addr ∈ w.search.nodes.map (·.addr)
  once : (w.search.nodes.map (·.searchRes.key)).Nodup
  devNum : w.search.u32DevNum = w.search.nodes.length
  given : ∀ lHandle ∈ handles w.search, w.got lHandle <+: w.search.nodes.map (·.searchRes)
  next : ∀ lHandle ∈ handles w.search, ∀ pDev, (tiNetGetSearch w.search lHandle pDev).1 =
    match w.search.nodes[(w.got lHandle).length]? with
    | none => .nothing
    | some n => .dev (tiGetSearchInfoTi2ipnc pDev n.searchRes)

theorem slots_of_handles {s : Search} {h : Int} (hmem : h ∈ handles s) :
    h ≠ 0 ∧ ∃ u rest, slots s.userCT h = u :: rest := by
  obtain ⟨u, hu, rfl⟩ := List.mem_map.1 hmem
  obtain ⟨hin, hne⟩ := List.mem_filter.1 hu
  refine ⟨by simpa using hne, List.exists_cons_of_ne_nil fun hnil => ?_⟩
  simpa using List.filter_eq_nil_iff.1 hnil u hin

theorem Kept.isolated {w : InUse} (h : Kept w) : Isolated w where
  counted := h.counted
  freed := h.freed
  live u hu addr haddr := by
    obtain ⟨hne, v, rest, hs⟩ := slots_of_handles (List.mem_map_of_mem hu)
    have hin : u ∈ v :: rest := by
      rw [← hs]
      exact List.mem_filter.2 ⟨(List.mem_filter.1 hu).1, by simp⟩
    rcases List.mem_cons.1 hin with rfl | hrest
    · have hseen := h.table.first _ hne _ _ hs
      rw [haddr] at hseen
      exact hseen.mem
    · rw [h.table.others _ hne _ _ hs u hrest] at haddr
      cases haddr
  once := h.keys
  devNum := h.devNum
  given lHandle hmem := by
    obtain ⟨hne, u, rest, hs⟩ := slots_of_handles hmem
    exact (h.table.first _ hne _ _ hs).front
  next lHandle hmem pDev := by
    obtain ⟨hne, u, rest, hs⟩ := slots_of_handles hmem
    have huser : tiNetGetUserTable w.search lHandle = some u := by
      unfold tiNetGetUserTable
      rw [if_neg ?_, find?_of_slots hs]
      have hcounted := h.counted
      have hpos := List.length_pos_of_mem (List.mem_map.1 hmem).choose_spec.1
      omega
    obtain ⟨before, after, -, heq⟩ := h.getSearch_eq hne huser pDev
    rw [heq]
    cases w.search.nodes[(w.got lHandle).length]? <;> rfl

/-- As long as no call with handle 0 meets a free slot, and no user that has
several slots loses its place to another of them, the search is right for all
its users. -/
theorem isolated_of_orderly {ops : List Op} {w : InUse}
    (hrun : Run (Restrict Step fun w op => orderly w op = true) .init ops w) : Isolated w :=
  (hrun.invariant (fun h hstep => h.step hstep.1 hstep.2) Kept.init).isolated

/-- An orderly step, carried out. -/
def execOrderly (w : InUse) (op : Op) : Option InUse := if orderly w op then step w op else none

theorem execOrderly_step {w w' : InUse} {op : Op} (h : execOrderly w op = some w') :
    Restrict Step (fun w op => orderly w op = true) w op w' := by
  unfold execOrderly at h
  split at h
  · exact ⟨h, ‹_›⟩
  · cases h

/-- A camera with this address. -/
def camera (u32DevIp : UInt32) : SearchRes :=
  ⟨List.replicate 48 0x41, 1, 2, 8000, u32DevIp, List.replicate 6 0, 0xffffff00, 0, 0, 0, []⟩

/-- What a user passes for the result. -/
def noDevice : IpncRes := ⟨[], 0, 0, 0, 0, [], 0, 0, 0, 0, 0, 0, none⟩

/-- Two users and two cameras, of which one answers twice; one user starts again
and stops once, and an unknown handle is stopped. -/
def twoUsers : List Op :=
  [.searchDo 5 true, .setDev (camera 1) (some 100), .addToList, .searchDo 6 true,
    .searchDo 5 true, .getSearch 6 noDevice, .setDev (camera 1) (some 200),
    .setDev (camera 2) (some 200), .addToList, .searchDone 5, .searchDone 9,
    .getSearch 5 noDevice, .getSearch 6 noDevice]

theorem isolated_of_orderly_twoUsers :
    ∃ w, Run (Restrict Step fun w op => orderly w op = true) .init twoUsers w ∧
      (w.got 5 = [camera 1] ∧ w.got 6 = [camera 1, camera 2]) ∧ Isolated w := by
  have hexec : (twoUsers.foldlM execOrderly .init).any (fun w =>
      w.got 5 = [camera 1] ∧ w.got 6 = [camera 1, camera 2]) = true := by decide +kernel
  obtain ⟨w, hw, hgot⟩ := (Option.any_eq_true _ _).1 hexec
  have hrun := Run.of_foldlM execOrderly_step hw
  exact ⟨w, hrun, by simpa using hgot, isolated_of_orderly hrun⟩

/-- A stop of handle 0 while one user is registered. -/
theorem not_isolated : ¬∀ (ops : List Op) (w : InUse), Run Step .init ops w → Isolated w := by
  intro h
  obtain ⟨w, hw, hcnt⟩ : ∃ w, [Op.searchDo 5 true, .searchDone 0].foldlM step .init = some w ∧
      (occupied w.search).length = 1 ∧ w.search.userCnt = 0 := by
    refine ⟨_, rfl, ?_⟩
    decide +kernel
  have hcounted := (h _ w (Run.of_foldlM id hw)).counted
  omega

end Nvr.NetSearch
