import Mathlib
import Nvr.Server.NetSearch

/-!
# Which cameras are put on the dead channels

What a run should do is `examination`: it takes the cameras one after the other and
puts each free one on the first dead channel that is left. The loop does so up to the
first camera it adds. Then it goes on from a link that is freed, so it does what it
should, whatever that link has in it, just if nothing is left to do then: no camera
is added, or there is one dead channel only.

Besides, a channel loses its camera when another recorder has announced it too, also
when the camera is alive.
-/

namespace Nvr.Server

open Nvr.Storage

variable {t : Tests}

/-- The cameras that a search has found. -/
structure Found where
  ipcs : List SearchNode
  distinct : (ipcs.map SearchNode.u32DevIp).Nodup
  nonzero : ∀ node ∈ ipcs, node.u32DevIp ≠ 0

/-- The channel has a camera that answers. -/
def Live (t : Tests) (c : ChannelCfg) : Prop := c.u32IpAddr ≠ 0 ∧ t.testAlive c.target = true

/-- A dead channel. -/
def Dead (t : Tests) (c : ChannelCfg) : Prop := c.u8Enable ≠ 0 ∧ c.u8SearchA ≠ 0 ∧ ¬ Live t c

instance (c : ChannelCfg) : Decidable (Live t c) := inferInstanceAs (Decidable (_ ∧ _))

instance (c : ChannelCfg) : Decidable (Dead t c) := inferInstanceAs (Decidable (_ ∧ _ ∧ ¬ _))

def deadChannels (t : Tests) (channelCfg : ChannelCfgs) : List Chn :=
  (List.finRange maxChn).filter fun chn => Dead t (channelCfg chn)

/-- A camera that is to be put on a channel. -/
def Free (t : Tests) (channelCfg : ChannelCfgs) (node : SearchNode) : Prop :=
  (∀ chn, (channelCfg chn).u8Enable ≠ 0 → (channelCfg chn).u32IpAddr ≠ node.u32DevIp) ∧
    t.remoteUsed node.u32DevIp = false ∧ t.testAlive node.target = true

theorem onChannel_eq_false {channelCfg : ChannelCfgs} {u32DevIp : UInt32} :
    onChannel channelCfg u32DevIp = false ↔
      ∀ chn, (channelCfg chn).u8Enable ≠ 0 → (channelCfg chn).u32IpAddr ≠ u32DevIp := by
  simp only [onChannel, List.any_eq_false, List.mem_finRange, true_implies, Bool.and_eq_true,
    decide_eq_true_eq, not_and]
  exact forall₂_congr fun _ _ => ne_comm

theorem canAdd_iff {channelCfg : ChannelCfgs} {node : SearchNode} :
    canAdd t channelCfg node = true ↔ Free t channelCfg node := by
  simp only [canAdd, Bool.and_eq_true, Bool.not_eq_true', and_assoc, onChannel_eq_false]
  rfl

instance (channelCfg : ChannelCfgs) (node : SearchNode) : Decidable (Free t channelCfg node) :=
  decidable_of_iff _ canAdd_iff

/-- What is to be done with each camera, up to the end of the list or of the dead channels. -/
def examination (t : Tests) :
    List SearchNode → List Chn → ChannelCfgs → List (SearchNode × Option Chn)
  | [], _, _ => []
  | _ :: _, [], _ => []
  | node :: nodes, chn :: dead, channelCfg =>
      if Free t channelCfg node then
        (node, some chn) ::
          examination t nodes dead (Function.update channelCfg chn (addedCfg node))
      else (node, none) :: examination t nodes (chn :: dead) channelCfg

/-- A run does what it should. -/
structure AssignLaw (t : Tests) (ipcs : List SearchNode) (channelCfg : ChannelCfgs)
    (a : Assigned) : Prop where
  examined : a.examined = examination t ipcs (deadChannels t channelCfg) channelCfg
  added : ∀ node chn, (node, some chn) ∈ a.examined → a.channelCfg chn = addedCfg node
  others : ∀ chn, (∀ node, (node, some chn) ∉ a.examined) →
    a.channelCfg chn = channelCfg chn ∨ (a.channelCfg chn).u32IpAddr = 0
  live : ∀ chn, Live t (channelCfg chn) → a.channelCfg chn = channelCfg chn
  channels : (a.examined.filterMap Prod.snd).Nodup
  injective : ∀ c d, c ≠ d → (a.channelCfg c).u8Enable ≠ 0 → (a.channelCfg d).u8Enable ≠ 0 →
    (a.channelCfg c).u32IpAddr = (a.channelCfg d).u32IpAddr → (a.channelCfg c).u32IpAddr ≠ 0 →
      a.channelCfg c = channelCfg c ∧ a.channelCfg d = channelCfg d

/-! ## The second loop -/

section Loop

variable {freed : Nat → List SearchNode} {dead : List Chn} {list : List SearchNode}
  {channelCfg : ChannelCfgs}

theorem addIpcs_added {chn : Chn} {node : SearchNode} (h : canAdd t channelCfg node = true) :
    addIpcs t freed (chn :: dead) (node :: list) channelCfg =
      let rest := addIpcs t freed dead (freed dead.length)
        (Function.update channelCfg chn (addedCfg node))
      ⟨rest.channelCfg, (node, some chn) :: rest.examined⟩ := by
  rw [addIpcs, if_pos h]

theorem addIpcs_skipped {chn : Chn} {node : SearchNode} (h : ¬ canAdd t channelCfg node = true) :
    addIpcs t freed (chn :: dead) (node :: list) channelCfg =
      let rest := addIpcs t freed (chn :: dead) list channelCfg
      ⟨rest.channelCfg, (node, none) :: rest.examined⟩ := by
  rw [addIpcs, if_neg h]

theorem addIpcs_nil_right : addIpcs t freed dead [] channelCfg = ⟨channelCfg, []⟩ := by
  cases dead <;> rw [addIpcs]

/-- The channels that get a camera are the first of the dead ones. -/
theorem addIpcs_channels (t : Tests) (freed : Nat → List SearchNode) (dead : List Chn)
    (list : List SearchNode) (channelCfg : ChannelCfgs) :
    (addIpcs t freed dead list channelCfg).examined.filterMap Prod.snd <+: dead := by
  induction dead, list, channelCfg using addIpcs.induct t freed with
  | case1 list channelCfg =>
      rw [addIpcs]
      exact List.nil_prefix
  | case2 chn dead channelCfg =>
      rw [addIpcs_nil_right]
      exact List.nil_prefix
  | case3 chn dead node list channelCfg hadd ih =>
      rw [addIpcs_added hadd]
      exact List.cons_prefix_cons.2 ⟨rfl, ih⟩
  | case4 chn dead node list channelCfg hskip ih =>
      rw [addIpcs_skipped hskip]
      exact ih

/-- A channel that gets no camera keeps its configuration. -/
theorem addIpcs_others {c : Chn} (t : Tests) (freed : Nat → List SearchNode) (dead : List Chn)
    (list : List SearchNode) (channelCfg : ChannelCfgs)
    (h : ∀ node, (node, some c) ∉ (addIpcs t freed dead list channelCfg).examined) :
    (addIpcs t freed dead list channelCfg).channelCfg c = channelCfg c := by
  induction dead, list, channelCfg using addIpcs.induct t freed with
  | case1 list channelCfg => rw [addIpcs]
  | case2 chn dead channelCfg => rw [addIpcs_nil_right]
  | case3 chn dead node list channelCfg hadd ih =>
      rw [addIpcs_added hadd] at h ⊢
      have hne : c ≠ chn := by
        rintro rfl
        exact h node List.mem_cons_self
      refine (ih fun n hn => h n (List.mem_cons_of_mem _ hn)).trans ?_
      exact Function.update_of_ne hne _ _
  | case4 chn dead node list channelCfg hskip ih =>
      rw [addIpcs_skipped hskip] at h ⊢
      exact ih fun n hn => h n (List.mem_cons_of_mem _ hn)

/-- A channel that gets a camera has its configuration in the end. -/
theorem addIpcs_given {c : Chn} {n : SearchNode} (t : Tests) (freed : Nat → List SearchNode)
    (dead : List Chn) (list : List SearchNode) (channelCfg : ChannelCfgs) (hnodup : dead.Nodup)
    (h : (n, some c) ∈ (addIpcs t freed dead list channelCfg).examined) :
    (addIpcs t freed dead list channelCfg).channelCfg c = addedCfg n ∧
      t.remoteUsed n.u32DevIp = false := by
  induction dead, list, channelCfg using addIpcs.induct t freed with
  | case1 list channelCfg =>
      rw [addIpcs] at h
      cases h
  | case2 chn dead channelCfg =>
      rw [addIpcs_nil_right] at h
      cases h
  | case3 chn dead node list channelCfg hadd ih =>
      obtain ⟨hnew, hrest⟩ := List.nodup_cons.1 hnodup
      rw [addIpcs_added hadd] at h ⊢
      cases h with
      | head =>
          refine ⟨?_, (canAdd_iff.1 hadd).2.1⟩
          -- the channel is not on the list any more
          refine (addIpcs_others t freed dead _ _ fun n' hn' => hnew ?_).trans
            (Function.update_self _ _ _)
          exact (addIpcs_channels t freed dead _ _).subset
            (List.mem_filterMap.2 ⟨_, hn', rfl⟩)
      | tail _ h => exact ih hrest h
  | case4 chn dead node list channelCfg hskip ih =>
      rw [addIpcs_skipped hskip] at h ⊢
      cases h with
      | tail _ h => exact ih hnodup h

/-- The run has put no camera on a second channel. -/
def NoNewPair (before after : ChannelCfgs) : Prop :=
  ∀ c d, c ≠ d → (after c).u8Enable ≠ 0 → (after d).u8Enable ≠ 0 →
    (after c).u32IpAddr = (after d).u32IpAddr → (after c).u32IpAddr ≠ 0 →
      after c = before c ∧ after d = before d

theorem NoNewPair.rfl {channelCfg : ChannelCfgs} : NoNewPair channelCfg channelCfg :=
  fun _ _ _ _ _ _ _ => ⟨Eq.refl _, Eq.refl _⟩

theorem NoNewPair.trans {a b c : ChannelCfgs} (h : NoNewPair a b) (h' : NoNewPair b c) :
    NoNewPair a c := by
  intro x y hne hx hy heq hzero
  obtain ⟨hcx, hcy⟩ := h' x y hne hx hy heq hzero
  rw [hcx, hcy] at heq
  rw [hcx] at hx hzero
  rw [hcy] at hy
  obtain ⟨hbx, hby⟩ := h x y hne hx hy heq hzero
  exact ⟨hcx.trans hbx, hcy.trans hby⟩

/-- A camera that is free is put on a channel. -/
theorem NoNewPair.add {chn : Chn} {node : SearchNode} (h : Free t channelCfg node) :
    NoNewPair channelCfg (Function.update channelCfg chn (addedCfg node)) := by
  intro c d hne hc hd heq _
  by_cases hcchn : c = chn
  · subst hcchn
    rw [Function.update_self, Function.update_of_ne hne.symm] at heq
    rw [Function.update_of_ne hne.symm] at hd
    exact absurd heq.symm (h.1 d hd)
  · rw [Function.update_of_ne hcchn] at heq hc ⊢
    by_cases hdchn : d = chn
    · subst hdchn
      rw [Function.update_self] at heq
      exact absurd heq (h.1 c hc)
    · rw [Function.update_of_ne hdchn]
      exact ⟨Eq.refl _, Eq.refl _⟩

theorem addIpcs_noNewPair (t : Tests) (freed : Nat → List SearchNode) (dead : List Chn)
    (list : List SearchNode) (channelCfg : ChannelCfgs) :
    NoNewPair channelCfg (addIpcs t freed dead list channelCfg).channelCfg := by
  induction dead, list, channelCfg using addIpcs.induct t freed with
  | case1 list channelCfg =>
      rw [addIpcs]
      exact .rfl
  | case2 chn dead channelCfg =>
      rw [addIpcs_nil_right]
      exact .rfl
  | case3 chn dead node list channelCfg hadd ih =>
      rw [addIpcs_added hadd]
      exact (NoNewPair.add (canAdd_iff.1 hadd)).trans ih
  | case4 chn dead node list channelCfg hskip ih =>
      rw [addIpcs_skipped hskip]
      exact ih

end Loop

/-! ## The first loop -/

/-- What the first loop leaves of a channel. -/
def checkedCfg (t : Tests) (c : ChannelCfg) : ChannelCfg :=
  if c.u8Enable ≠ 0 ∧ c.u8SearchA ≠ 0 ∧ t.remoteUsed c.u32IpAddr = true then
    { c with u32IpAddr := 0, u8SearchA := 1 }
  else c

/-- The channel is put on the list of those that are not alive. -/
def NoAlive (t : Tests) (c : ChannelCfg) : Prop :=
  c.u8Enable ≠ 0 ∧ c.u8SearchA ≠ 0 ∧ (t.remoteUsed c.u32IpAddr = true ∨ ¬ Live t c)

instance (c : ChannelCfg) : Decidable (NoAlive t c) :=
  inferInstanceAs (Decidable (_ ∧ _ ∧ (_ ∨ ¬ _)))

theorem checkChannel_eq (channelCfg : ChannelCfgs) (chn : Chn) :
    checkChannel t channelCfg chn =
      (Function.update channelCfg chn (checkedCfg t (channelCfg chn)),
        decide (NoAlive t (channelCfg chn))) := by
  unfold checkChannel
  by_cases hsearch : (channelCfg chn).u8Enable = 0 ∨ (channelCfg chn).u8SearchA = 0
  · have hchecked : checkedCfg t (channelCfg chn) = channelCfg chn :=
      if_neg fun h => hsearch.elim h.1 h.2.1
    have hnot : ¬ NoAlive t (channelCfg chn) := fun h => hsearch.elim h.1 h.2.1
    rw [if_pos hsearch, hchecked, Function.update_eq_self, decide_eq_false hnot]
  · obtain ⟨henable, hauto⟩ := not_or.1 hsearch
    rw [if_neg hsearch]
    by_cases hused : t.remoteUsed (channelCfg chn).u32IpAddr = true
    · have hchecked : checkedCfg t (channelCfg chn) = _ := if_pos ⟨henable, hauto, hused⟩
      have hnot : NoAlive t (channelCfg chn) := ⟨henable, hauto, .inl hused⟩
      rw [if_pos hused, hchecked, decide_eq_true hnot]
    · have hchecked : checkedCfg t (channelCfg chn) = channelCfg chn :=
        if_neg fun h => hused h.2.2
      have hnot : NoAlive t (channelCfg chn) ↔ ¬ Live t (channelCfg chn) := by
        unfold NoAlive
        simp [henable, hauto, hused]
      rw [if_neg hused, hchecked, Function.update_eq_self]
      split
      · rename_i hzero
        rw [decide_eq_true (hnot.2 fun hlive => hlive.1 hzero)]
      · rename_i hzero
        cases halive : t.testAlive (channelCfg chn).target with
        | true => rw [decide_eq_false fun hno => hnot.1 hno ⟨hzero, halive⟩, Bool.not_true]
        | false =>
            have hdead : ¬ Live t (channelCfg chn) := fun hlive => by
              rw [hlive.2] at halive
              cases halive
            rw [decide_eq_true (hnot.2 hdead), Bool.not_false]

theorem checkChannels_eq {chns : List Chn} (hnodup : chns.Nodup) (channelCfg : ChannelCfgs) :
    checkChannels t chns channelCfg =
      (fun c => if c ∈ chns then checkedCfg t (channelCfg c) else channelCfg c,
        chns.filter fun c => NoAlive t (channelCfg c)) := by
  induction chns generalizing channelCfg with
  | nil =>
      rw [checkChannels]
      simp
  | cons chn chns ih =>
      obtain ⟨hnew, hrest⟩ := List.nodup_cons.1 hnodup
      have hkept : ∀ c ∈ chns, Function.update channelCfg chn (checkedCfg t (channelCfg chn)) c =
          channelCfg c := by
        intro c hc
        refine Function.update_of_ne ?_ _ _
        rintro rfl
        exact hnew hc
      rw [checkChannels, checkChannel_eq]
      simp only [ih hrest]
      refine Prod.ext (funext fun c => ?_) ?_
      · show (if c ∈ chns then _ else _) = if c ∈ chn :: chns then _ else _
        by_cases hc : c ∈ chns
        · rw [if_pos hc, if_pos (List.mem_cons_of_mem _ hc), hkept c hc]
        · rw [if_neg hc]
          by_cases hchn : c = chn
          · subst hchn
            rw [Function.update_self, if_pos List.mem_cons_self]
          · rw [Function.update_of_ne hchn, if_neg (by simp [hc, hchn])]
      · have hfilter : chns.filter (fun c => NoAlive t
            (Function.update channelCfg chn (checkedCfg t (channelCfg chn)) c)) =
              chns.filter fun c => NoAlive t (channelCfg c) :=
          List.filter_congr fun c hc => by rw [hkept c hc]
        simp only [hfilter, List.filter_cons]

/-- The list that the first loop makes. -/
def listNoalive (t : Tests) (channelCfg : ChannelCfgs) : List Chn :=
  (List.finRange maxChn).filter fun c => NoAlive t (channelCfg c)

theorem nodup_listNoalive (channelCfg : ChannelCfgs) : (listNoalive t channelCfg).Nodup :=
  (List.nodup_finRange maxChn).filter _

/-- The whole task is its second loop, after what the first one has found. -/
theorem nvrSearchIntelligentCheckTask_eq (freed : Nat → List SearchNode) (autoCtrl : Bool)
    (ipcs : List SearchNode) (channelCfg : ChannelCfgs) :
    nvrSearchIntelligentCheckTask t freed autoCtrl ipcs channelCfg =
      addIpcs t freed (listNoalive t channelCfg) ipcs fun c => checkedCfg t (channelCfg c) := by
  have hchecked : checkChannels t (List.finRange maxChn) channelCfg =
      (fun c => checkedCfg t (channelCfg c), listNoalive t channelCfg) := by
    rw [checkChannels_eq (List.nodup_finRange maxChn)]
    simp only [List.mem_finRange, if_true]
    rfl
  unfold nvrSearchIntelligentCheckTask
  simp only [hchecked]
  split
  · rename_i hempty
    rw [List.eq_nil_of_length_eq_zero hempty.1, addIpcs]
  · rfl

/-! ## Both loops -/

section Task

variable {channelCfg : ChannelCfgs} {freed : Nat → List SearchNode} {autoCtrl : Bool}
  {ipcs : List SearchNode}

/-- No channel has a camera that is alive and that another recorder has announced. -/
def NoneTaken (t : Tests) (channelCfg : ChannelCfgs) : Prop :=
  ∀ chn, (channelCfg chn).u8Enable ≠ 0 → (channelCfg chn).u8SearchA ≠ 0 →
    Live t (channelCfg chn) → t.remoteUsed (channelCfg chn).u32IpAddr = false

theorem NoneTaken.listNoalive (h : NoneTaken t channelCfg) :
    listNoalive t channelCfg = deadChannels t channelCfg := by
  refine List.filter_congr fun c _ => decide_eq_decide.2 ?_
  refine and_congr_right fun henable => and_congr_right fun hauto => ?_
  refine ⟨fun hno hlive => ?_, .inr⟩
  obtain hused | hdead := hno
  · rw [h c henable hauto hlive] at hused
    cases hused
  · exact hdead hlive

/-- The first loop does not change which cameras are free. -/
theorem free_checkedCfg {node : SearchNode} (hzero : node.u32DevIp ≠ 0) :
    Free t (fun c => checkedCfg t (channelCfg c)) node ↔ Free t channelCfg node := by
  refine and_congr_left fun hrest => forall_congr' fun c => ?_
  show ((checkedCfg t (channelCfg c)).u8Enable ≠ 0 →
    (checkedCfg t (channelCfg c)).u32IpAddr ≠ node.u32DevIp) ↔ _
  unfold checkedCfg
  split
  · rename_i hused
    refine iff_of_true (fun _ => hzero.symm) fun _ heq => ?_
    rw [heq, hrest.1] at hused
    cases hused.2.2
  · rfl

theorem noNewPair_checkedCfg : NoNewPair channelCfg fun c => checkedCfg t (channelCfg c) := by
  have hkept : ∀ c, (checkedCfg t (channelCfg c)).u32IpAddr ≠ 0 →
      checkedCfg t (channelCfg c) = channelCfg c := by
    intro c hc
    unfold checkedCfg at hc ⊢
    split
    · rename_i hused
      rw [if_pos hused] at hc
      exact absurd (Eq.refl _) hc
    · rfl
  intro c d _ _ _ heq hzero
  exact ⟨hkept c hzero, hkept d (heq ▸ hzero)⟩

/-- As long as at most one camera can be added, the loop examines what it should. -/
theorem addIpcs_examined {after : ChannelCfgs} {dead : List Chn}
    (hfree : ∀ node ∈ ipcs, Free t after node ↔ Free t channelCfg node)
    (h : dead.length ≤ 1 ∨ ∀ node ∈ ipcs, ¬ Free t channelCfg node) :
    (addIpcs t freed dead ipcs after).examined = examination t ipcs dead channelCfg := by
  cases dead with
  | nil =>
      rw [addIpcs]
      cases ipcs <;> rfl
  | cons chn dead =>
      induction ipcs with
      | nil =>
          rw [addIpcs_nil_right]
          rfl
      | cons node ipcs ih =>
          obtain ⟨hnode, hrest⟩ := List.forall_mem_cons.1 hfree
          rw [examination]
          by_cases hadd : Free t channelCfg node
          · have hdead : dead = [] := by
              obtain hlen | hnone := h
              · exact List.eq_nil_of_length_eq_zero (by simpa using hlen)
              · exact absurd hadd (hnone node List.mem_cons_self)
            subst hdead
            rw [if_pos hadd, addIpcs_added (canAdd_iff.2 (hnode.2 hadd)), addIpcs]
            cases ipcs <;> rfl
          · have hskip : ¬ canAdd t after node = true :=
              fun hadd' => hadd (hnode.1 (canAdd_iff.1 hadd'))
            rw [if_neg hadd, addIpcs_skipped hskip]
            have hless := h.imp_right fun hnone n hn => hnone n (List.mem_cons_of_mem _ hn)
            exact congrArg _ (ih hrest hless)

/-- With two dead channels and a camera to add, what the freed link has in it shows. -/
theorem exists_freed {after : ChannelCfgs} {c d : Chn} {dead : List Chn}
    (hfree : ∀ node ∈ ipcs, Free t after node ↔ Free t channelCfg node)
    (h : ∃ node ∈ ipcs, Free t channelCfg node) :
    ∃ freed, (addIpcs t freed (c :: d :: dead) ipcs after).examined ≠
      examination t ipcs (c :: d :: dead) channelCfg := by
  induction ipcs with
  | nil =>
      obtain ⟨node, hnode, -⟩ := h
      cases hnode
  | cons node ipcs ih =>
      obtain ⟨hnode, hrest⟩ := List.forall_mem_cons.1 hfree
      by_cases hadd : Free t channelCfg node
      · have hcode : ∀ freed, (addIpcs t freed (c :: d :: dead) (node :: ipcs) after).examined =
            (node, some c) :: (addIpcs t freed (d :: dead) (freed (d :: dead).length)
              (Function.update after c (addedCfg node))).examined := by
          intro freed
          rw [addIpcs_added (canAdd_iff.2 (hnode.2 hadd))]
        simp only [hcode, examination, if_pos hadd]
        cases ipcs with
        | nil =>
            -- the camera is the last one, and the loop goes on
            refine ⟨fun _ => [node], fun heq => ?_⟩
            have htail := (List.cons.inj heq).2
            rw [addIpcs] at htail
            split at htail <;> cases htail
        | cons next ipcs =>
            -- there is one more camera, and the loop ends
            refine ⟨fun _ => [], fun heq => ?_⟩
            have htail := (List.cons.inj heq).2
            rw [addIpcs_nil_right, examination] at htail
            split at htail <;> cases htail
      · have hmore : ∃ n ∈ ipcs, Free t channelCfg n := by
          obtain ⟨n, hn, hnfree⟩ := h
          cases hn with
          | head => exact absurd hnfree hadd
          | tail _ hn => exact ⟨n, hn, hnfree⟩
        obtain ⟨freed, hdiffer⟩ := ih hrest hmore
        have hskip : ¬ canAdd t after node = true :=
          fun hadd' => hadd (hnode.1 (canAdd_iff.1 hadd'))
        refine ⟨freed, fun heq => hdiffer ?_⟩
        rw [addIpcs_skipped hskip, examination, if_neg hadd] at heq
        exact (List.cons.inj heq).2

/-- A channel loses a camera that another recorder has announced. -/
theorem taken_lost {chn : Chn} (henable : (channelCfg chn).u8Enable ≠ 0)
    (hauto : (channelCfg chn).u8SearchA ≠ 0)
    (hused : t.remoteUsed (channelCfg chn).u32IpAddr = true) :
    (nvrSearchIntelligentCheckTask t freed autoCtrl ipcs channelCfg).channelCfg chn ≠
      channelCfg chn := by
  intro hsame
  rw [nvrSearchIntelligentCheckTask_eq] at hsame
  have hzero : (channelCfg chn).u32IpAddr ≠ 0 := by
    intro hzero
    rw [hzero] at hused
    cases hused
  by_cases hadd : ∀ node, (node, some chn) ∉
      (addIpcs t freed (listNoalive t channelCfg) ipcs fun c => checkedCfg t (channelCfg c)).examined
  · rw [addIpcs_others _ _ _ _ _ hadd, checkedCfg, if_pos ⟨henable, hauto, hused⟩] at hsame
    exact hzero (congrArg ChannelCfg.u32IpAddr hsame).symm
  · obtain ⟨node, hnode⟩ := not_forall.1 hadd
    obtain ⟨hgiven, hfree⟩ :=
      addIpcs_given t freed _ _ _ (nodup_listNoalive channelCfg) (not_not.1 hnode)
    have hip : node.u32DevIp = (channelCfg chn).u32IpAddr :=
      congrArg ChannelCfg.u32IpAddr (hgiven.symm.trans hsame)
    rw [hip, hused] at hfree
    cases hfree

/-- What a run does besides examining the right cameras. -/
theorem NoneTaken.assignLaw (h : NoneTaken t channelCfg)
    (hexamined : (nvrSearchIntelligentCheckTask t freed autoCtrl ipcs channelCfg).examined =
      examination t ipcs (deadChannels t channelCfg) channelCfg) :
    AssignLaw t ipcs channelCfg
      (nvrSearchIntelligentCheckTask t freed autoCtrl ipcs channelCfg) := by
  have hnodup : (Server.listNoalive t channelCfg).Nodup := nodup_listNoalive channelCfg
  refine ⟨hexamined, ?_, ?_, ?_, ?_, ?_⟩
  all_goals rw [nvrSearchIntelligentCheckTask_eq]
  · intro node chn hadded
    exact (addIpcs_given _ _ _ _ _ hnodup hadded).1
  · intro chn hothers
    rw [addIpcs_others _ _ _ _ _ hothers]
    unfold checkedCfg
    split
    · exact .inr rfl
    · exact .inl rfl
  · intro chn hlive
    have hfree : ¬ ((channelCfg chn).u8Enable ≠ 0 ∧ (channelCfg chn).u8SearchA ≠ 0 ∧
        t.remoteUsed (channelCfg chn).u32IpAddr = true) := by
      rintro ⟨henable, hauto, hused⟩
      rw [h chn henable hauto hlive] at hused
      cases hused
    rw [addIpcs_others]
    · exact if_neg hfree
    · intro node hnode
      have hmem : chn ∈ Server.listNoalive t channelCfg :=
        (addIpcs_channels t freed _ _ _).subset (List.mem_filterMap.2 ⟨_, hnode, rfl⟩)
      obtain ⟨-, -, hdead⟩ : Dead t (channelCfg chn) := by
        rw [h.listNoalive] at hmem
        simpa [deadChannels] using hmem
      exact hdead hlive
  · exact (addIpcs_channels t freed _ _ _).sublist.nodup hnodup
  · exact noNewPair_checkedCfg.trans (addIpcs_noNewPair t freed _ _ _)

/-- Whatever the freed links have in them, a run does what it should: just if no live
camera of a channel is announced elsewhere, and there is at most one dead channel or no
camera to add. -/
theorem assignLaw_iff (t : Tests) (autoCtrl : Bool) (found : Found) (channelCfg : ChannelCfgs) :
    (∀ freed, AssignLaw t found.ipcs channelCfg
        (nvrSearchIntelligentCheckTask t freed autoCtrl found.ipcs channelCfg)) ↔
      NoneTaken t channelCfg ∧ ((deadChannels t channelCfg).length ≤ 1 ∨
        ∀ node ∈ found.ipcs, ¬ Free t channelCfg node) := by
  have hfree : ∀ node ∈ found.ipcs, Free t (fun c => checkedCfg t (channelCfg c)) node ↔
      Free t channelCfg node := fun node hnode => free_checkedCfg (found.nonzero node hnode)
  constructor
  · intro hlaw
    have htaken : NoneTaken t channelCfg := by
      intro chn henable hauto hlive
      by_contra hused
      exact taken_lost henable hauto (by simpa using hused)
        ((hlaw fun _ => []).live chn hlive)
    refine ⟨htaken, ?_⟩
    by_contra hbad
    obtain ⟨hlen, hsome⟩ := not_or.1 hbad
    have hsome : ∃ node ∈ found.ipcs, Free t channelCfg node := by
      simpa using hsome
    match hdead : deadChannels t channelCfg with
    | [] => simp [hdead] at hlen
    | [c] => simp [hdead] at hlen
    | c :: d :: dead =>
        obtain ⟨freed, hdiffer⟩ := @exists_freed _ _ _ _ c d dead hfree hsome
        have hexamined := (hlaw freed).examined
        rw [nvrSearchIntelligentCheckTask_eq, htaken.listNoalive, hdead] at hexamined
        exact hdiffer hexamined
  · rintro ⟨htaken, hless⟩ freed
    refine htaken.assignLaw ?_
    rw [nvrSearchIntelligentCheckTask_eq, htaken.listNoalive]
    exact addIpcs_examined hfree hless

/-- Channels 0 and 1 are dead, the others are off. -/
def twoDead : ChannelCfgs := fun chn =>
  { addedCfg ⟨[], [], [], [], 0, 0⟩ with u8Enable := if chn.val < 2 then 1 else 0 }

/-- Two cameras, both of which answer. -/
def twoCameras : Found where
  ipcs := [⟨[], [], [], [], 1, 80⟩, ⟨[], [], [], [], 2, 80⟩]
  distinct := by decide
  nonzero := by decide

def allAlive : Tests := ⟨fun _ => false, fun _ => true⟩

/-- The second camera is not examined when the freed link has no successor. -/
theorem not_assignLaw :
    ¬ ∀ (t : Tests) (freed : Nat → List SearchNode) (autoCtrl : Bool) (found : Found)
      (channelCfg : ChannelCfgs), AssignLaw t found.ipcs channelCfg
        (nvrSearchIntelligentCheckTask t freed autoCtrl found.ipcs channelCfg) := by
  intro h
  have hexamined := (h allAlive (fun _ => []) false twoCameras twoDead).examined
  have hdead : listNoalive allAlive twoDead = [0, 1] := by decide
  have hipcs : twoCameras.ipcs = [⟨[], [], [], [], 1, 80⟩, ⟨[], [], [], [], 2, 80⟩] := rfl
  have hadd : canAdd allAlive (fun c => checkedCfg allAlive (twoDead c))
      ⟨[], [], [], [], 1, 80⟩ = true := by decide
  rw [nvrSearchIntelligentCheckTask_eq, hdead, hipcs, addIpcs_added hadd, addIpcs_nil_right]
    at hexamined
  exact absurd (congrArg List.length hexamined) (by decide)

end Task

end Nvr.Server
