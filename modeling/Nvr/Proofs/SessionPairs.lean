import Mathlib.Data.List.Nodup
import Mathlib.Data.List.Perm.Subperm
import Nvr.Lib.Run
import Nvr.Rtsp.Session

/-!
# What goes with a session

A client count, a thread and a link belong to a session that plays, and they
come and go with it as long as a session takes the way from DESCRIBE over SETUP
to PLAY and ends there. Nothing in the server holds it to that way. SETUP and a
second PLAY put a session that plays back and start it again, DESCRIBE links
a stream whether or not there is one already and names another channel, a PLAY
that is refused has named its channel before, and a session that ends before
PLAY keeps its link.

`Orderly` is what one step keeps if its request is not of these kinds: each
session's own calls are pairs of a LINK and its UNLINK, with a LINK at the end
if `nLink` says so; and a thread that runs is the one in `sessThd` of a session
that plays.
-/

namespace Nvr.Rtsp

/-- The session plays on channel `c`. -/
def Session.playsOn (c : Int) (sess : Session) : Bool := sess.eState = .play ∧ sess.nChId = c

/-- What the session is worth in the client count of channel `c`. -/
def Session.clients (c : Int) (sess : Session) : Nat := if sess.playsOn c then 1 else 0

/-- The calls made for session `i`. -/
def RtspSvr.linkCalls (svr : RtspSvr) (i : Nat) : List LinkCall :=
  (svr.calls.filter fun call => call.1 = i).map Prod.snd

/-- Every LINK is followed by its UNLINK. -/
inductive Matched : List LinkCall → Prop
  | nil : Matched []
  | pair {calls : List LinkCall} (h : Matched calls) (stream : Nat) :
      Matched (calls ++ [.link stream, .unlink stream])

/-- What a session holds is held once, and is given back when it ends. -/
structure Paired (svr : RtspSvr) : Prop where
  count : ∀ c, 0 ≤ c → c < rtspMaxChn →
    svr.clientCnt c = svr.sessList.countP (Session.playsOn c) ∧ 0 ≤ svr.clientCnt c
  oneThread : ∀ sess ∈ svr.sessList, (svr.threads.countP fun t => t.2 = sess.id) ≤ 1
  joined : ∀ t ∈ svr.threads, ∃ sess ∈ svr.sessList, sess.id = t.2
  matched : ∀ i, (∀ sess ∈ svr.sessList, sess.id ≠ i) → Matched (svr.linkCalls i)

/-- The calls made for a session that is still there. -/
def Session.Linked (sess : Session) (calls : List LinkCall) : Prop :=
  if sess.nLink = 0 then Matched calls
  else ∃ before, Matched before ∧ calls = before ++ [.link sess.lPriData]

/-- The threads that run, and whose they are. -/
structure ThreadsFit (svr : RtspSvr) : Prop where
  nodup : (svr.threads.map Prod.fst).Nodup
  below : ∀ t ∈ svr.threads, t.1 < svr.nextThread
  owner : ∀ t ∈ svr.threads, ∃ sess ∈ svr.sessList,
    sess.id = t.2 ∧ sess.eState = .play ∧ sess.sessThd = t.1

structure Orderly (svr : RtspSvr) : Prop where
  ids : (svr.sessList.map Session.id).Nodup
  below : ∀ sess ∈ svr.sessList, sess.id < svr.nextSess
  running : ∀ sess ∈ svr.sessList, sess.eState ≠ .stop
  count : ∀ c, svr.clientCnt c = svr.sessList.countP (Session.playsOn c)
  threads : ThreadsFit svr
  linked : ∀ sess ∈ svr.sessList, sess.Linked (svr.linkCalls sess.id)
  matched : ∀ i, (∀ sess ∈ svr.sessList, sess.id ≠ i) → Matched (svr.linkCalls i)
  known : ∀ call ∈ svr.calls, call.1 < svr.nextSess

theorem Orderly.init (nUseAuth : Bool) : Orderly (rtspSvrInit nUseAuth) where
  ids := List.nodup_nil
  below sess h := by cases h
  running sess h := by cases h
  count c := rfl
  threads := ⟨List.nodup_nil, by simp [rtspSvrInit], by simp [rtspSvrInit]⟩
  linked sess h := by cases h
  matched i _ := .nil
  known call h := by cases h

theorem Orderly.paired {svr : RtspSvr} (h : Orderly svr) : Paired svr where
  count c _ _ := by
    rw [h.count]
    exact ⟨rfl, Int.natCast_nonneg _⟩
  oneThread sess hsess := by
    -- two threads of one session would both be the one in its `sessThd`
    have hsub : (svr.threads.filter fun t => t.2 = sess.id).map Prod.fst ⊆ [sess.sessThd] := by
      intro n hn
      obtain ⟨t, ht, rfl⟩ := List.mem_map.1 hn
      obtain ⟨ht, hid⟩ := List.mem_filter.1 ht
      obtain ⟨owner, howner, hsame, _, hthd⟩ := h.threads.owner t ht
      have heq : owner.id = sess.id := hsame.trans (of_decide_eq_true hid)
      obtain rfl := List.inj_on_of_nodup_map h.ids howner hsess heq
      exact List.mem_singleton.2 hthd.symm
    have hnodup : ((svr.threads.filter fun t => t.2 = sess.id).map Prod.fst).Nodup :=
      h.threads.nodup.sublist (List.filter_sublist.map Prod.fst)
    have hle := (List.subperm_of_subset hnodup hsub).length_le
    rwa [List.length_map, ← List.countP_eq_length_filter] at hle
  joined t ht := by
    obtain ⟨sess, hsess, hid, _⟩ := h.threads.owner t ht
    exact ⟨sess, hsess, hid⟩
  matched := h.matched

/-! ## One session among the others -/

section Among

variable {svr svr' : RtspSvr} {sess : Session}

/-- A session of the list, and those before and behind it. -/
theorem Orderly.split (h : Orderly svr) (hmem : sess ∈ svr.sessList) :
    ∃ before behind, svr.sessList = before ++ sess :: behind ∧
      ∀ s ∈ before ++ behind, s.id ≠ sess.id := by
  obtain ⟨before, behind, hlist⟩ := List.append_of_mem hmem
  refine ⟨before, behind, hlist, fun s hs heq => ?_⟩
  have hids := h.ids
  rw [hlist, List.map_append, List.map_cons, List.nodup_middle, List.nodup_cons,
    ← List.map_append] at hids
  exact hids.1 (heq ▸ List.mem_map_of_mem hs)

theorem put_split {sess' : Session} {before behind : List Session} (hlist : svr.sessList = before ++ sess :: behind)
    (hother : ∀ s ∈ before ++ behind, s.id ≠ sess.id) (hid : sess'.id = sess.id) :
    (svr.put sess').sessList = before ++ sess' :: behind := by
  have hsame : ∀ l : List Session, (∀ s ∈ l, s.id ≠ sess.id) →
      (l.map fun s => if s.id = sess'.id then sess' else s) = l := by
    intro l hl
    refine (List.map_congr_left fun s hs => ?_).trans (List.map_id l)
    rw [hid, if_neg (hl s hs), id]
  rw [RtspSvr.put]
  simp only
  rw [hlist, List.map_append, List.map_cons, if_pos hid.symm,
    hsame before fun s hs => hother s (List.mem_append_left _ hs),
    hsame behind fun s hs => hother s (List.mem_append_right _ hs)]

theorem remove_split {before behind : List Session}
    (hlist : svr.sessList = before ++ sess :: behind)
    (hother : ∀ s ∈ before ++ behind, s.id ≠ sess.id) :
    (rtspSessionListsRemove svr sess).sessList = before ++ behind := by
  have hsame : ∀ l : List Session, (∀ s ∈ l, s.id ≠ sess.id) →
      (l.filter fun s => s.id ≠ sess.id) = l := by
    intro l hl
    exact List.filter_eq_self.2 fun s hs => decide_eq_true (hl s hs)
  rw [rtspSessionListsRemove]
  simp only
  rw [hlist, List.filter_append, List.filter_cons_of_neg (by simp),
    hsame before fun s hs => hother s (List.mem_append_left _ hs),
    hsame behind fun s hs => hother s (List.mem_append_right _ hs)]

/-- Calls made for one session are no calls of another. -/
theorem linkCalls_append {i : Nat} {new : List LinkCall}
    (hcalls : svr'.calls = svr.calls ++ new.map (Prod.mk i)) (j : Nat) :
    svr'.linkCalls j = svr.linkCalls j ++ if i = j then new else [] := by
  have hnew : ((new.map (Prod.mk i)).filter fun call => call.1 = j).map Prod.snd =
      if i = j then new else [] := by
    rw [List.filter_map, List.map_map]
    split
    · next heq =>
        have hall : new.filter ((fun call : Nat × LinkCall => decide (call.1 = j)) ∘ Prod.mk i) =
            new := List.filter_eq_self.2 fun call _ => decide_eq_true heq
        rw [hall]
        exact List.map_id new
    · next hne =>
        have hnone : new.filter ((fun call : Nat × LinkCall => decide (call.1 = j)) ∘ Prod.mk i) =
            [] := List.filter_eq_nil_iff.2 fun call _ => by simpa using hne
        rw [hnone, List.map_nil]
  rw [RtspSvr.linkCalls, hcalls, List.filter_append, List.map_append, hnew, RtspSvr.linkCalls]

/-- A session has changed, and what belongs to it. -/
theorem Orderly.change (h : Orderly svr) (hmem : sess ∈ svr.sessList) (sess' : Session)
    (hid : sess'.id = sess.id)
    (hlist : svr'.sessList = (svr.put sess').sessList) (hnext : svr'.nextSess = svr.nextSess)
    (hcount : ∀ c, svr'.clientCnt c + sess.clients c = svr.clientCnt c + sess'.clients c)
    (hstate : sess'.eState ≠ .stop) (hnodup : (svr'.threads.map Prod.fst).Nodup)
    (hbelow : ∀ t ∈ svr'.threads, t.1 < svr'.nextThread)
    (howner : ∀ t ∈ svr'.threads, (t ∈ svr.threads ∧ t.2 ≠ sess.id) ∨
      (t.2 = sess.id ∧ sess'.eState = .play ∧ sess'.sessThd = t.1))
    (new : List LinkCall) (hcalls : svr'.calls = svr.calls ++ new.map (Prod.mk sess.id))
    (hlinked : sess'.Linked (svr.linkCalls sess.id ++ new)) : Orderly svr' := by
  obtain ⟨before, behind, hsplit, hother⟩ := h.split hmem
  rw [put_split hsplit hother hid] at hlist
  have hmem' : ∀ s, s ∈ svr'.sessList ↔ s = sess' ∨ s ∈ before ++ behind := by
    intro s
    rw [hlist]
    simp only [List.mem_append, List.mem_cons]
    tauto
  have hold : ∀ s ∈ before ++ behind, s ∈ svr.sessList := by
    intro s hs
    rw [hsplit]
    simp only [List.mem_append, List.mem_cons] at hs ⊢
    tauto
  have hrest : ∀ s ∈ before ++ behind, svr'.linkCalls s.id = svr.linkCalls s.id := by
    intro s hs
    rw [linkCalls_append hcalls, if_neg fun heq => hother s hs heq.symm, List.append_nil]
  have hself : svr'.linkCalls sess.id = svr.linkCalls sess.id ++ new := by
    rw [linkCalls_append hcalls, if_pos rfl]
  refine ⟨?_, fun s hs => ?_, fun s hs => ?_, fun c => ?_, ⟨hnodup, hbelow, fun t ht => ?_⟩,
    fun s hs => ?_, fun i hi => ?_, fun call hcall => ?_⟩
  · have hids := h.ids
    rwa [hsplit, List.map_append, List.map_cons, ← hid, ← List.map_cons, ← List.map_append,
      ← hlist] at hids
  · rw [hnext]
    rcases (hmem' s).1 hs with rfl | hs
    · rw [hid]
      exact h.below sess hmem
    · exact h.below s (hold s hs)
  · rcases (hmem' s).1 hs with rfl | hs
    · exact hstate
    · exact h.running s (hold s hs)
  · have hbefore := h.count c
    have hstep := hcount c
    rw [hsplit, List.countP_append, List.countP_cons] at hbefore
    rw [hlist, List.countP_append, List.countP_cons]
    rw [Session.clients, Session.clients] at hstep
    omega
  · rcases howner t ht with ⟨ht, hne⟩ | ⟨heq, hplay, hthd⟩
    · obtain ⟨s, hs, hsid, hsplay⟩ := h.threads.owner t ht
      refine ⟨s, (hmem' s).2 (.inr ?_), hsid, hsplay⟩
      rw [hsplit] at hs
      simp only [List.mem_append, List.mem_cons] at hs ⊢
      rcases hs with hs | rfl | hs
      · exact .inl hs
      · exact absurd hsid.symm hne
      · exact .inr hs
    · exact ⟨sess', (hmem' _).2 (.inl rfl), hid.trans heq.symm, hplay, hthd⟩
  · rcases (hmem' s).1 hs with rfl | hs
    · rw [hid, hself]
      exact hlinked
    · rw [hrest s hs]
      exact h.linked s (hold s hs)
  · have hne : sess.id ≠ i := fun heq => hi sess' ((hmem' _).2 (.inl rfl)) (hid.trans heq)
    rw [linkCalls_append hcalls, if_neg hne, List.append_nil]
    refine h.matched i fun s hs heq => ?_
    rw [hsplit] at hs
    simp only [List.mem_append, List.mem_cons] at hs
    rcases hs with hs | rfl | hs
    · exact hi s ((hmem' s).2 (.inr (List.mem_append_left _ hs))) heq
    · exact hne heq
    · exact hi s ((hmem' s).2 (.inr (List.mem_append_right _ hs))) heq
  · rw [hnext]
    rw [hcalls] at hcall
    rcases List.mem_append.1 hcall with hcall | hcall
    · exact h.known call hcall
    · obtain ⟨_, _, rfl⟩ := List.mem_map.1 hcall
      exact h.below sess hmem

/-- A session has gone, and with it what belonged to it. -/
theorem Orderly.leave (h : Orderly svr) (hmem : sess ∈ svr.sessList)
    (hlist : svr'.sessList = (rtspSessionListsRemove svr sess).sessList)
    (hnext : svr'.nextSess = svr.nextSess)
    (hcount : ∀ c, svr'.clientCnt c + sess.clients c = svr.clientCnt c)
    (hnodup : (svr'.threads.map Prod.fst).Nodup)
    (hbelow : ∀ t ∈ svr'.threads, t.1 < svr'.nextThread)
    (howner : ∀ t ∈ svr'.threads, t ∈ svr.threads ∧ t.2 ≠ sess.id)
    (new : List LinkCall) (hcalls : svr'.calls = svr.calls ++ new.map (Prod.mk sess.id))
    (hmatched : Matched (svr.linkCalls sess.id ++ new)) : Orderly svr' := by
  obtain ⟨before, behind, hsplit, hother⟩ := h.split hmem
  rw [remove_split hsplit hother] at hlist
  have hold : ∀ s ∈ before ++ behind, s ∈ svr.sessList := by
    intro s hs
    rw [hsplit]
    simp only [List.mem_append, List.mem_cons] at hs ⊢
    tauto
  refine ⟨?_, fun s hs => ?_, fun s hs => ?_, fun c => ?_, ⟨hnodup, hbelow, fun t ht => ?_⟩,
    fun s hs => ?_, fun i hi => ?_, fun call hcall => ?_⟩
  · have hids := h.ids
    rw [hsplit, List.map_append, List.map_cons, List.nodup_middle, List.nodup_cons,
      ← List.map_append] at hids
    rw [hlist]
    exact hids.2
  · rw [hnext]
    exact h.below s (hold s (hlist ▸ hs))
  · exact h.running s (hold s (hlist ▸ hs))
  · have hbefore := h.count c
    have hstep := hcount c
    rw [hsplit, List.countP_append, List.countP_cons] at hbefore
    rw [hlist, List.countP_append]
    rw [Session.clients] at hstep
    omega
  · obtain ⟨ht, hne⟩ := howner t ht
    obtain ⟨s, hs, hsid, hsplay⟩ := h.threads.owner t ht
    refine ⟨s, ?_, hsid, hsplay⟩
    rw [hsplit] at hs
    rw [hlist]
    simp only [List.mem_append, List.mem_cons] at hs ⊢
    rcases hs with hs | rfl | hs
    · exact .inl hs
    · exact absurd hsid.symm hne
    · exact .inr hs
  · rw [hlist] at hs
    rw [linkCalls_append hcalls, if_neg fun heq => hother s hs heq.symm, List.append_nil]
    exact h.linked s (hold s hs)
  · rw [linkCalls_append hcalls]
    split
    · next heq =>
        rw [← heq]
        exact hmatched
    · next hne =>
        rw [List.append_nil]
        refine h.matched i fun s hs heq => ?_
        rw [hsplit] at hs
        simp only [List.mem_append, List.mem_cons] at hs
        rw [hlist] at hi
        rcases hs with hs | rfl | hs
        · exact hi s (List.mem_append_left _ hs) heq
        · exact hne heq
        · exact hi s (List.mem_append_right _ hs) heq
  · rw [hnext]
    rw [hcalls] at hcall
    rcases List.mem_append.1 hcall with hcall | hcall
    · exact h.known call hcall
    · obtain ⟨_, _, rfl⟩ := List.mem_map.1 hcall
      exact h.below sess hmem

/-- The session that a running thread was made for plays. -/
theorem Orderly.not_running (h : Orderly svr) (hmem : sess ∈ svr.sessList)
    (hstate : sess.eState ≠ .play) : ∀ t ∈ svr.threads, t.2 ≠ sess.id := by
  intro t ht heq
  obtain ⟨owner, howner, hid, hplay, _⟩ := h.threads.owner t ht
  obtain rfl := List.inj_on_of_nodup_map h.ids howner hmem (hid.trans heq)
  exact hstate hplay

/-- A running thread of the session is the one in `sessThd`. -/
theorem Orderly.owner_eq (h : Orderly svr) (hmem : sess ∈ svr.sessList) :
    ∀ t ∈ svr.threads, t.2 = sess.id → sess.eState = .play ∧ sess.sessThd = t.1 := by
  intro t ht heq
  obtain ⟨owner, howner, hid, hplay, hthd⟩ := h.threads.owner t ht
  obtain rfl := List.inj_on_of_nodup_map h.ids howner hmem (hid.trans heq)
  exact ⟨hplay, hthd⟩

end Among

/-! ## When a request keeps things paired -/

/-- The session may end: it plays, or has no link. -/
def Session.Closable (sess : Session) : Prop := sess.eState = .play ∨ sess.nLink = 0

/-- A request that leaves the session with what belongs to it. -/
def Request.Keeps (nUseAuth : Bool) (sess : Session) (answers : Answers) : Request → Prop
  | .options | .getParam | .notFull => True
  | .describe chn acceptsSdp user =>
      ∀ nCh nStream, rtspGetChn chn = some (nCh, nStream) →
        (sess.eState = .play → nCh = sess.nChId) ∧
          (acceptsSdp → ¬(nUseAuth ∧ ¬user) → answers.link₁ → sess.nLink = 0)
  | .setup q => if rtspHandleSetup q = 0 then sess.eState ≠ .play else sess.Closable
  | .play chn =>
      match rtspGetChn chn with
      | none => sess.eState ≠ .play
      | some (nCh, _) =>
          match sess.eState with
          | .ready => True
          | .play => nCh = sess.nChId
          | _ => sess.nLink = 0
  | .teardown | .invalid => sess.Closable
  | .pause | .other => answers.sent ∨ sess.Closable

/-- No session ends before PLAY with a link, and no request takes a session that
has a link or plays to another channel, back, or to a second link. -/
def SvrEvent.Keeps (svr : RtspSvr) : SvrEvent → Prop
  | .request sess r answers => r.Keeps svr.nUseAuth sess answers
  | .hangUp sess => sess.Closable
  | _ => True

section Step

variable {svr svr' : RtspSvr} {sess : Session}

theorem clients_play {c : Int} {s : Session} (h : s.eState = .play) :
    s.clients c = if s.nChId = c then 1 else 0 := by
  simp [Session.clients, Session.playsOn, h]

theorem clients_of_ne {c : Int} {s : Session} (h : s.eState ≠ .play) : s.clients c = 0 := by
  simp [Session.clients, Session.playsOn, h]

theorem count_apply (svr : RtspSvr) (nCh n c : Int) :
    (svr.count nCh n).clientCnt c = svr.clientCnt c + if nCh = c then n else 0 := by
  rw [RtspSvr.count]
  simp only [Function.update_apply]
  split
  · next heq => rw [if_pos heq.symm, heq]
  · next hne => rw [if_neg fun heq => hne heq.symm, Int.add_zero]

theorem nodup_fresh {l : List Nat} {n : Nat} (hl : l.Nodup) (hn : n ∉ l) : (l ++ [n]).Nodup :=
  List.nodup_middle.2 (List.nodup_cons.2 (by simpa using ⟨hn, hl⟩))

theorem endThread_nodup (h : ThreadsFit svr) (thread : Nat) :
    ((svr.endThread thread).threads.map Prod.fst).Nodup :=
  h.nodup.sublist (List.filter_sublist.map Prod.fst)

theorem Orderly.close (h : Orderly svr) (hmem : sess ∈ svr.sessList) (hclose : sess.Closable) :
    Orderly (rtspSessionClose svr sess) := by
  have hlinked := h.linked sess hmem
  unfold rtspSessionClose
  split
  · next hbefore =>
      have hstate : sess.eState ≠ .play := by
        intro heq
        rw [heq] at hbefore
        cases hbefore
      have hlink : sess.nLink = 0 := hclose.resolve_left hstate
      rw [Session.Linked, if_pos hlink] at hlinked
      refine h.leave hmem rfl rfl (fun c => ?_) h.threads.nodup h.threads.below
        (fun t ht => ⟨ht, h.not_running hmem hstate t ht⟩) [] (by simp [rtspSessionListsRemove])
        (by simpa using hlinked)
      rw [clients_of_ne hstate]
      exact Int.add_zero _
  · next hbefore =>
      have hstate : sess.eState = .play := by
        have hstop := h.running sess hmem
        cases heq : sess.eState with
        | play => rfl
        | stop => exact absurd heq hstop
        | init => simp [heq, SessionState.beforePlay] at hbefore
        | ready => simp [heq, SessionState.beforePlay] at hbefore
      have hcount : ∀ c, (svr.count sess.nChId (-1)).clientCnt c + sess.clients c =
          svr.clientCnt c := by
        intro c
        rw [count_apply, clients_play hstate]
        split <;> omega
      have howner : ∀ t ∈ (svr.endThread sess.sessThd).threads, t ∈ svr.threads ∧ t.2 ≠ sess.id := by
        intro t ht
        obtain ⟨ht, hne⟩ := List.mem_filter.1 ht
        refine ⟨ht, fun heq => ?_⟩
        exact of_decide_eq_true hne (h.owner_eq hmem t ht heq).2.symm
      have hbelow : ∀ t ∈ (svr.endThread sess.sessThd).threads, t.1 < svr.nextThread :=
        fun t ht => h.threads.below t (howner t ht).1
      simp only
      split
      · next hlink =>
          rw [Session.Linked, if_neg hlink] at hlinked
          obtain ⟨before, hmatched, hcalls⟩ := hlinked
          refine h.leave hmem rfl rfl hcount (endThread_nodup h.threads _) hbelow howner
            [.unlink sess.lPriData] rfl ?_
          rw [hcalls, List.append_assoc]
          exact .pair hmatched _
      · next hlink =>
          rw [Session.Linked, if_pos (not_not.1 hlink)] at hlinked
          exact h.leave hmem rfl rfl hcount (endThread_nodup h.threads _) hbelow howner []
            (by simp [rtspSessionListsRemove, RtspSvr.endThread, RtspSvr.count])
            (by simpa using hlinked)

/-- A change that leaves the state and the thread of a session, and its channel
while it plays. -/
theorem Orderly.rename (h : Orderly svr) (hmem : sess ∈ svr.sessList) (sess' : Session)
    (hid : sess'.id = sess.id) (hstate : sess'.eState = sess.eState)
    (hthd : sess'.sessThd = sess.sessThd) (hchn : sess.eState = .play → sess'.nChId = sess.nChId)
    (hlist : svr'.sessList = (svr.put sess').sessList) (hnext : svr'.nextSess = svr.nextSess)
    (hcnt : svr'.clientCnt = svr.clientCnt) (hthreads : svr'.threads = svr.threads)
    (hthread : svr'.nextThread = svr.nextThread) (new : List LinkCall)
    (hcalls : svr'.calls = svr.calls ++ new.map (Prod.mk sess.id))
    (hlinked : sess'.Linked (svr.linkCalls sess.id ++ new)) : Orderly svr' := by
  refine h.change hmem sess' hid hlist hnext (fun c => ?_) ?_ ?_ ?_ (fun t ht => ?_) new hcalls hlinked
  · rw [hcnt]
    by_cases hplay : sess.eState = .play
    · rw [clients_play hplay, clients_play (hstate.trans hplay), hchn hplay]
    · rw [clients_of_ne hplay, clients_of_ne (hstate ▸ hplay)]
  · rw [hstate]
    exact h.running sess hmem
  · rw [hthreads]
    exact h.threads.nodup
  · rw [hthreads, hthread]
    exact h.threads.below
  · rw [hthreads] at ht
    by_cases heq : t.2 = sess.id
    · obtain ⟨hplay, hthd'⟩ := h.owner_eq hmem t ht heq
      exact .inr ⟨heq, hstate.trans hplay, hthd.trans hthd'⟩
    · exact .inl ⟨ht, heq⟩

theorem Orderly.describe (h : Orderly svr) (hmem : sess ∈ svr.sessList) {answers : Answers}
    {chn : Option (Int × Int)} {acceptsSdp user : Bool}
    (hkeeps : (Request.describe chn acceptsSdp user).Keeps svr.nUseAuth sess answers) :
    Orderly ((rtspHandleDescribe chn acceptsSdp user answers svr sess).1.put
      (rtspHandleDescribe chn acceptsSdp user answers svr sess).2) := by
  have hlinked := h.linked sess hmem
  unfold rtspHandleDescribe
  split
  · exact h.rename hmem sess rfl rfl rfl (fun _ => rfl) rfl rfl rfl rfl rfl []
      (by simp [RtspSvr.put]) (by simpa using hlinked)
  · next nCh nStream hchn =>
      obtain ⟨hplay, hlink⟩ := hkeeps nCh nStream hchn
      -- the channel is noted before anything else is looked at
      have hrefused : Orderly (svr.put { sess with nChId := nCh, nStreamId := nStream }) :=
        h.rename hmem { sess with nChId := nCh, nStreamId := nStream } rfl rfl rfl hplay rfl rfl
          rfl rfl rfl [] (by simp [RtspSvr.put]) (by rw [List.append_nil]; exact hlinked)
      simp only
      split
      · exact hrefused
      · next haccept =>
          split
          · exact hrefused
          · next huser =>
              by_cases hfirst : answers.link₁ = true
              · have hnone := hlink (not_not.1 haccept) huser hfirst
                rw [Session.Linked, if_pos hnone] at hlinked
                simp only [nvrRtspStartPreview, hfirst, if_true]
                rw [if_neg (by decide)]
                by_cases hsecond : answers.link₂ = true
                · simp only [nvrRtspStopPreview, hsecond, if_true]
                  rw [if_neg (by decide)]
                  refine h.rename hmem
                    { sess with
                      nChId := nCh
                      nStreamId := nStream
                      lPriData := svr.nextStream + 1
                      nLink := 1 }
                    rfl rfl rfl hplay rfl rfl rfl rfl rfl
                    [.link svr.nextStream, .unlink svr.nextStream, .link (svr.nextStream + 1)]
                    (by simp [RtspSvr.put]) ?_
                  rw [Session.Linked, if_neg Nat.one_ne_zero]
                  exact ⟨_, .pair hlinked svr.nextStream, by simp⟩
                · simp only [nvrRtspStopPreview, hsecond]
                  refine h.rename hmem
                    { sess with nChId := nCh, nStreamId := nStream, lPriData := 0 }
                    rfl rfl rfl hplay rfl rfl rfl rfl rfl
                    [.link svr.nextStream, .unlink svr.nextStream] (by simp [RtspSvr.put]) ?_
                  rw [Session.Linked, if_pos hnone]
                  exact .pair hlinked svr.nextStream
              · simp only [nvrRtspStartPreview, hfirst]
                exact hrefused

/-- The session plays from now on, and is counted. -/
theorem Orderly.start (h : Orderly svr) (hmem : sess ∈ svr.sessList) (hstate : sess.eState ≠ .play)
    (sess' : Session) (hid : sess'.id = sess.id) (hplay : sess'.eState = .play)
    (hlink : sess'.nLink = sess.nLink) (hpri : sess'.lPriData = sess.lPriData)
    (hlist : svr'.sessList = (svr.put sess').sessList) (hnext : svr'.nextSess = svr.nextSess)
    (hcnt : ∀ c, svr'.clientCnt c = svr.clientCnt c + if sess'.nChId = c then 1 else 0)
    (hnodup : (svr'.threads.map Prod.fst).Nodup)
    (hbelow : ∀ t ∈ svr'.threads, t.1 < svr'.nextThread)
    (howner : ∀ t ∈ svr'.threads, t ∈ svr.threads ∨ t = (sess'.sessThd, sess.id))
    (hcalls : svr'.calls = svr.calls) : Orderly svr' := by
  refine h.change hmem sess' hid hlist hnext (fun c => ?_) (by simp [hplay]) hnodup hbelow
    (fun t ht => ?_) [] (by simpa using hcalls) ?_
  · rw [hcnt, clients_of_ne hstate, clients_play hplay]
    split <;> omega
  · rcases howner t ht with ht | rfl
    · exact .inl ⟨ht, h.not_running hmem hstate t ht⟩
    · exact .inr ⟨rfl, hplay, rfl⟩
  · have hlinked := h.linked sess hmem
    rw [List.append_nil, Session.Linked, hlink, hpri]
    exact hlinked

theorem Orderly.play (h : Orderly svr) (hmem : sess ∈ svr.sessList) {answers : Answers}
    {chn : Option (Int × Int)} (hkeeps : (Request.play chn).Keeps svr.nUseAuth sess answers) :
    Orderly (rtspHandleEvent (.play chn) answers svr sess) := by
  rw [Request.Keeps] at hkeeps
  rw [rtspHandleEvent, rtspHandlePlay]
  split
  · next hchn =>
      rw [hchn] at hkeeps
      exact h.start hmem hkeeps { sess with eState := .play } rfl rfl rfl rfl rfl rfl
        (count_apply _ _ 1) h.threads.nodup h.threads.below (fun t ht => .inl ht) rfl
  · next nCh nStream hchn =>
      simp only [hchn] at hkeeps
      simp only
      by_cases hready : sess.eState = .ready
      · have hstate : sess.eState ≠ .play := by simp [hready]
        rw [if_neg (not_not.2 hready)]
        simp only [if_true]
        by_cases hcreated : answers.created = true
        · simp only [createRtspAvTransmit, hcreated, if_true]
          refine h.start hmem hstate
            { sess with
              nChId := nCh
              nStreamId := nStream
              eState := .play
              sessThd := svr.nextThread }
            rfl rfl rfl rfl rfl rfl (count_apply _ _ 1) ?_ ?_ ?_ rfl
          · have hnew : svr.nextThread ∉ svr.threads.map Prod.fst := by
              intro hmem
              obtain ⟨t, ht, heq⟩ := List.mem_map.1 hmem
              have hlt := h.threads.below t ht
              omega
            show ((svr.threads ++ [(svr.nextThread, sess.id)]).map Prod.fst).Nodup
            rw [List.map_append, List.map_singleton]
            exact nodup_fresh h.threads.nodup hnew
          · intro t ht
            rcases List.mem_append.1 ht with ht | ht
            · exact Nat.lt_succ_of_lt (h.threads.below t ht)
            · rw [List.mem_singleton.1 ht]
              exact Nat.lt_succ_self _
          · intro t ht
            rcases List.mem_append.1 ht with ht | ht
            · exact .inl ht
            · exact .inr (List.mem_singleton.1 ht)
        · simp only [createRtspAvTransmit, hcreated, Bool.false_eq_true, if_false]
          exact h.start hmem hstate
            { sess with nChId := nCh, nStreamId := nStream, eState := .play }
            rfl rfl rfl rfl rfl rfl (count_apply _ _ 1)
            h.threads.nodup h.threads.below (fun t ht => .inl ht) rfl
      · rw [if_pos hready]
        simp only
        rw [if_neg (by decide)]
        -- the session is closed under the channel of the request that was refused
        have hclose : sess.Closable →
            (sess.eState = .play → nCh = sess.nChId) →
              Orderly (rtspSessionClose svr { sess with nChId := nCh, nStreamId := nStream }) := by
          intro hclosable hchn
          have hsame : rtspSessionClose svr { sess with nChId := nCh, nStreamId := nStream } =
              rtspSessionClose svr sess := by
            unfold rtspSessionClose
            by_cases hplay : sess.eState = .play
            · rw [hchn hplay]
              rfl
            · have hinit : sess.eState.beforePlay = true := by
                have hstop := h.running sess hmem
                cases heq : sess.eState <;> simp_all [SessionState.beforePlay]
              simp only [hinit, if_true]
              rfl
          rw [hsame]
          exact h.close hmem hclosable
        have hcases : sess.Closable ∧ (sess.eState = .play → nCh = sess.nChId) := by
          cases heq : sess.eState with
          | ready => exact absurd heq hready
          | play =>
              rw [heq] at hkeeps
              exact ⟨.inl heq, fun _ => hkeeps⟩
          | init =>
              rw [heq] at hkeeps
              exact ⟨.inr hkeeps, fun hplay => (by cases hplay)⟩
          | stop => exact absurd heq (h.running sess hmem)
        exact hclose hcases.1 hcases.2

theorem Orderly.request (h : Orderly svr) (hmem : sess ∈ svr.sessList) {r : Request}
    {answers : Answers} (hkeeps : r.Keeps svr.nUseAuth sess answers) :
    Orderly (rtspHandleEvent r answers svr sess) := by
  cases r with
  | options => exact h
  | getParam => exact h
  | notFull => exact h
  | describe chn acceptsSdp user => exact h.describe hmem hkeeps
  | play chn => exact h.play hmem hkeeps
  | teardown => exact h.close hmem hkeeps
  | invalid => exact h.close hmem hkeeps
  | setup q =>
      rw [Request.Keeps] at hkeeps
      rw [rtspHandleEvent]
      split
      · next hret =>
          rw [if_pos hret] at hkeeps
          refine h.change hmem { sess with eState := .ready } rfl rfl rfl (fun c => ?_) (by simp)
            h.threads.nodup h.threads.below
            (fun t ht => .inl ⟨ht, h.not_running hmem hkeeps t ht⟩) [] (by simp [RtspSvr.put]) ?_
          · rw [clients_of_ne hkeeps, clients_of_ne (by simp)]
            rfl
          · rw [List.append_nil]
            exact h.linked sess hmem
      · next hret =>
          rw [if_neg hret] at hkeeps
          exact h.close hmem hkeeps
  | pause =>
      rw [rtspHandleEvent]
      split
      · exact h
      · next hsent => exact h.close hmem (hkeeps.resolve_left hsent)
  | other =>
      rw [rtspHandleEvent]
      split
      · exact h
      · next hsent => exact h.close hmem (hkeeps.resolve_left hsent)

/-- A new session has nothing yet. -/
theorem Orderly.connect (h : Orderly svr) : Orderly (rtspSessionCreate svr) := by
  have hnone : svr.linkCalls svr.nextSess = [] := by
    rw [RtspSvr.linkCalls, List.filter_eq_nil_iff.2, List.map_nil]
    intro call hcall
    have hlt := h.known call hcall
    exact fun heq => absurd (of_decide_eq_true heq) (Nat.ne_of_lt hlt)
  have hfresh : svr.nextSess ∉ svr.sessList.map Session.id := by
    intro hmem
    obtain ⟨s, hs, heq⟩ := List.mem_map.1 hmem
    have hlt := h.below s hs
    omega
  refine ⟨?_, fun s hs => ?_, fun s hs => ?_, fun c => ?_,
    ⟨h.threads.nodup, h.threads.below, fun t ht => ?_⟩, fun s hs => ?_, fun i hi => ?_,
    fun call hcall => Nat.lt_succ_of_lt (h.known call hcall)⟩
  · rw [rtspSessionCreate]
    simp only
    rw [List.map_append, List.map_singleton]
    exact nodup_fresh h.ids hfresh
  · rcases List.mem_append.1 hs with hs | hs
    · exact Nat.lt_succ_of_lt (h.below s hs)
    · rw [List.mem_singleton.1 hs]
      exact Nat.lt_succ_self _
  · rcases List.mem_append.1 hs with hs | hs
    · exact h.running s hs
    · rw [List.mem_singleton.1 hs]
      exact nofun
  · rw [rtspSessionCreate]
    simp only
    rw [List.countP_append, h.count]
    rfl
  · obtain ⟨s, hs, howner⟩ := h.threads.owner t ht
    exact ⟨s, List.mem_append_left _ hs, howner⟩
  · rcases List.mem_append.1 hs with hs | hs
    · exact h.linked s hs
    · rw [List.mem_singleton.1 hs]
      show Matched (svr.linkCalls svr.nextSess)
      rw [hnone]
      exact .nil
  · exact h.matched i fun s hs => hi s (List.mem_append_left _ hs)

theorem Orderly.step (h : Orderly svr) {e : SvrEvent} (hstep : SvrStep svr e svr')
    (hkeeps : e.Keeps svr) : Orderly svr' := by
  cases hstep with
  | connect => exact h.connect
  | request hmem r answers => exact h.request hmem hkeeps
  | hangUp hmem => exact h.close hmem hkeeps
  | check hmem =>
      rw [if_neg (h.running _ hmem)]
      exact h
  | @threadEnds thread _ =>
      exact { h with
        threads := {
          nodup := endThread_nodup h.threads _
          below := fun t ht => h.threads.below t (List.mem_of_mem_filter ht)
          owner := fun t ht => h.threads.owner t (List.mem_of_mem_filter ht) } }

end Step

/-- In every run whose requests keep the session with what belongs to it, and in
which no session ends before PLAY with a link, the client counts are right, a
session has one thread at most, which ends before the session is freed, and
when a session is gone every LINK has been followed by its UNLINK. -/
theorem paired_of_keeps {nUseAuth : Bool} {svr : RtspSvr} {events : List SvrEvent}
    (h : Run (Restrict SvrStep SvrEvent.Keeps) (rtspSvrInit nUseAuth) events svr) : Paired svr :=
  (h.invariant (fun hsvr hstep => hsvr.step hstep.1 hstep.2) (Orderly.init nUseAuth)).paired

/-- A SETUP for the video track over TCP, as clients send it. -/
def setupVideo : SetupRequest where
  url := true
  track := some 0
  hasTransport := true
  transport := some .tcp

/-- Every call answers well. -/
def answersWell : Answers := ⟨true, true, true, true⟩

/-- A request of session 0 in this state. -/
def ask (nChId : Int) (nLink : Nat) (eState : SessionState) (sessThd lPriData : Nat) (r : Request) :
    SvrEvent := .request ⟨0, nChId, 0, nLink, eState, sessThd, lPriData⟩ r answersWell

/-- One session, from DESCRIBE to TEARDOWN. -/
theorem paired_of_keeps_played :
    ∃ svr, Run (Restrict SvrStep SvrEvent.Keeps) (rtspSvrInit false)
      ([] ++ [.connect] ++ [ask (-1) 0 .init 0 0 (.describe (some (0, 0)) true true)] ++
        [ask 0 1 .init 0 2 (.setup setupVideo)] ++ [ask 0 1 .ready 0 2 (.play (some (0, 0)))] ++
        [ask 0 1 .play 1 2 .teardown]) svr ∧ Paired svr := by
  have hrun : ∃ svr, Run (Restrict SvrStep SvrEvent.Keeps) (rtspSvrInit false)
      ([] ++ [.connect] ++ [ask (-1) 0 .init 0 0 (.describe (some (0, 0)) true true)] ++
        [ask 0 1 .init 0 2 (.setup setupVideo)] ++ [ask 0 1 .ready 0 2 (.play (some (0, 0)))] ++
        [ask 0 1 .play 1 2 .teardown]) svr := by
    refine ⟨_, .snoc (.snoc (.snoc (.snoc (.snoc .nil ⟨.connect, trivial⟩)
      ⟨.request (by decide) _ _, ?_⟩) ⟨.request (by decide) _ _, ?_⟩)
      ⟨.request (by decide) _ _, ?_⟩) ⟨.request (by decide) _ _, ?_⟩⟩
    · intro nCh nStream _
      exact ⟨nofun, fun _ _ _ => rfl⟩
    · exact (nofun : SessionState.init ≠ .play)
    · trivial
    · exact .inl rfl
  obtain ⟨svr, hrun⟩ := hrun
  exact ⟨svr, hrun, paired_of_keeps hrun⟩

/-- A session that plays sends SETUP and PLAY once more: it is counted twice,
and has two threads. -/
theorem setup_again_not_paired :
    ¬∀ (nUseAuth : Bool) (svr : RtspSvr) (events : List SvrEvent),
      Run SvrStep (rtspSvrInit nUseAuth) events svr → Paired svr := by
  intro h
  have hrun : ∃ svr, Run SvrStep (rtspSvrInit false)
      ([] ++ [.connect] ++ [ask (-1) 0 .init 0 0 (.setup setupVideo)] ++
        [ask (-1) 0 .ready 0 0 (.play (some (0, 0)))] ++ [ask 0 0 .play 1 0 (.setup setupVideo)] ++
        [ask 0 0 .ready 1 0 (.play (some (0, 0)))]) svr ∧ svr.clientCnt 0 = 2 ∧
          svr.sessList.length = 1 := by
    refine ⟨_, .snoc (.snoc (.snoc (.snoc (.snoc .nil .connect) (.request (by decide) _ _))
      (.request (by decide) _ _)) (.request (by decide) _ _)) (.request (by decide) _ _), ?_, ?_⟩
    · rfl
    · rfl
  obtain ⟨svr, hrun, hcount, hlength⟩ := hrun
  have hpaired := (h false svr _ hrun).count 0 (by decide) (by decide)
  have hle : svr.sessList.countP (Session.playsOn 0) ≤ svr.sessList.length := List.countP_le_length
  omega

end Nvr.Rtsp
