import Nvr.Proofs.SeekInside
import Nvr.Storage.Query

/-!
# What a session gives back

A session that is opened on a valid query result and then asked for frames and
moved in any order. It gives back frames of the stretch only, as long as no call
goes where only a bound of another stretch stops it.
-/

namespace Nvr.Storage

open ByteFile

/-- A call with the disk and the basket that it finds. -/
structure Asked where
  dev : Dev
  bgi : BasketGlobalInfo
  call : ReadCall

namespace Opened

variable (o : Opened)

/-- A call while the fragment is there. -/
def Step (w : Session) (a : Asked) (w' : Session) : Prop :=
  o.Finds a.dev a.bgi ∧ w' = w.call a.dev a.bgi a.call

/-- The slot that a call goes to is one of the stretch: `strg_basket_read` goes
back to slot 0 and not to the first of the stretch, `strg_basket_read_seek` takes
the end from where the cursor is, and in `strg_basket_read_set` a product has to
be an `int`. -/
def Within (bgi : BasketGlobalInfo) (bri : BasketReadInfo) : ReadCall → Prop
  | .read cmd _ => bri.readCnt = 0 ∨ ∀ oft ∈ cmd.iframeOft, bri.iframeIdx + oft < 0 ∨
      bri.beginIframeIdx ≤ bri.iframeIdx + oft ∨
      o.bf.firstIframeIdx + bri.iframeNum ≤ bri.iframeIdx + oft
  | .set t => t ≤ (bgi.bfList.getD o.bri.bf default).beginTime ∨
      t ≥ (bgi.bfList.getD o.bri.bf default).endTime ∨ o.Scales t
  | .seek off => bri.iframeIdx = bri.beginIframeIdx ∨
      bri.iframeIdx + off < bri.beginIframeIdx + bri.iframeNum

instance (t : Int32) : Decidable (o.Scales t) := inferInstanceAs (Decidable (_ ∨ _))

instance (bgi : BasketGlobalInfo) (bri : BasketReadInfo) (call : ReadCall) :
    Decidable (o.Within bgi bri call) :=
  match call with
  | .read _ _ => @instDecidableOr _ _ inferInstance (Option.decidableForallMem _)
  | .set _ => inferInstanceAs (Decidable (_ ∨ _ ∨ _))
  | .seek _ => inferInstanceAs (Decidable (_ ∨ _))

end Opened

/-- Every frame that was delivered starts in the range, and after every call that
positions the cursor on an I-frame its slot is one of the range. -/
structure InsideRange (bri : BasketReadInfo) (w : Session) : Prop where
  delivered : ∀ p ∈ w.delivered, bri.beginPos.toInt ≤ p ∧
    p < bri.beginPos.toInt + bri.fragmentSize.toInt
  positioned : ∀ k ∈ w.positioned, bri.beginIframeIdx.toInt ≤ k.toInt ∧
    k.toInt < bri.beginIframeIdx.toInt + bri.iframeNum.toInt

/-- A session with nothing read. -/
def Session.opened (bri : BasketReadInfo) : Session := ⟨bri, [], []⟩

section Calls

variable {o : Opened} {dev : Dev} {bgi : BasketGlobalInfo} {w : Session}

theorem InsideRange.read (hin : InsideRange o.bri w) {cmd : StorageReadCmd} {buffLen : Int32}
    (hframe : ∀ ts data, (strgBasketRead dev bgi w.bri cmd buffLen).1 = .frame ts data →
      o.Holds (frameStart (strgBasketRead dev bgi w.bri cmd buffLen).2 data) ∧
        (cmd.iframeOft.isSome →
          o.InRange (strgBasketRead dev bgi w.bri cmd buffLen).2.iframeIdx)) :
    InsideRange o.bri (w.read dev bgi cmd buffLen) := by
  unfold Session.read
  split
  · rename_i ts data bri heq
    rw [heq] at hframe
    obtain ⟨hstart, hslot⟩ := hframe ts data rfl
    constructor
    · intro p hp
      rcases List.mem_cons.1 hp with rfl | hp
      · exact hstart
      · exact hin.delivered p hp
    · intro k hk
      dsimp only at hk
      split at hk
      · rename_i hsome
        rcases List.mem_cons.1 hk with rfl | hk
        · exact hslot hsome
        · exact hin.positioned k hk
      · exact hin.positioned k hk
  · exact ⟨hin.delivered, hin.positioned⟩

theorem InsideRange.move (hin : InsideRange o.bri w) {moved : Moved} (hstays : StaysInside o moved) :
    InsideRange o.bri (w.move moved) := by
  obtain ⟨ok, bri⟩ := moved
  cases ok with
  | true =>
      refine ⟨hin.delivered, fun k hk => ?_⟩
      rcases List.mem_cons.1 hk with rfl | hk
      · exact hstays.2 rfl
      · exact hin.positioned k hk
  | false => exact ⟨hin.delivered, hin.positioned⟩

@[simp] theorem Session.bri_move (moved : Moved) : (w.move moved).bri = moved.2 := by
  obtain ⟨ok, bri⟩ := moved
  cases ok <;> rfl

@[simp] theorem Session.bri_read (cmd : StorageReadCmd) (buffLen : Int32) :
    (w.read dev bgi cmd buffLen).bri = (strgBasketRead dev bgi w.bri cmd buffLen).2 := by
  unfold Session.read
  split
  · rename_i heq
    rw [heq]
  · rename_i heq
    rw [heq]

/-- What every call keeps. -/
def Session.Kept (o : Opened) (w : Session) : Prop := Inside o w.bri ∧ InsideRange o.bri w

theorem Session.Kept.call (hv : o.Valid) (h : w.Kept o) {a : Asked} {w' : Session}
    (hstep : o.Step w a w') (hwithin : o.Within a.bgi w.bri a.call) : w'.Kept o := by
  obtain ⟨hf, rfl⟩ := hstep
  obtain ⟨hin, hrange⟩ := h
  obtain ⟨dev, bgi, call⟩ := a
  cases call with
  | read cmd buffLen =>
      obtain ⟨hkeep, hframe⟩ := strgBasketRead_inside hv hf hin buffLen hwithin
      refine ⟨?_, hrange.read hframe⟩
      show Inside o (w.read dev bgi cmd buffLen).bri
      rw [Session.bri_read]
      exact hkeep
  | set t =>
      have hstays := strgBasketReadSet_stays hv hf hin hwithin
      refine ⟨?_, hrange.move hstays⟩
      show Inside o (w.move _).bri
      rw [Session.bri_move]
      exact hstays.1
  | seek off =>
      have hstays := strgBasketReadSeek_stays hv hf hin hwithin
      refine ⟨?_, hrange.move hstays⟩
      show Inside o (w.move _).bri
      rw [Session.bri_move]
      exact hstays.1

end Calls

/-! ## Sessions on a valid query result -/

section Sessions

variable {dev : Dev} {bgi : BasketGlobalInfo} {bf : BasketFragment}
  {before frames after : List StoredFrame} {q : RecordQueryInfo} {bri : BasketReadInfo}
  {sfi : StorageFragmentInfo} {dev' : Dev} {bgi' : BasketGlobalInfo}

theorem Range.opened (hq : Range bf before frames after q) (hp : InFile bf)
    (hrec : Recorded (dev.file (.basket bgi.basketIdx)) bf (before ++ frames ++ after))
    (hbf : bgi.bfList[q.bfIdx.toUInt32.toNat]? = some bf)
    (hstart : strgBasketReadStart dev bgi q = (some (bri, sfi), dev', bgi')) :
    bri = openedAt q bgi.basketIdx (UInt32.ofNat (startPos bf before)) := by
  have hlt : q.bfIdx.toUInt32 < bgi.bg.fragmentNum := by
    by_contra hge
    unfold strgBasketReadStart at hstart
    rw [if_neg hge] at hstart
    cases hstart
  rcases hq.readStart_cases hrec hp hlt hbf with hnone | heq
  · rw [hstart] at hnone
    cases hnone
  · rw [hstart] at heq
    cases heq
    rfl

/-- Such a session is one on its stretch. -/
theorem Range.valid (hq : Range bf before frames after q) (hp : InFile bf)
    (hrec : Recorded (dev.file (.basket bgi.basketIdx)) bf (before ++ frames ++ after))
    (hsound : ∀ s ∈ frames, s.Sound) (idx : Nat) :
    (Opened.mk bf before frames after
      (openedAt q idx (UInt32.ofNat (startPos bf before)))).Valid := by
  obtain ⟨hslots, hpositive⟩ := hq.first_lt hrec
  refine ⟨hp, hsound, by exact_mod_cast hslots, hpositive, hrec.startPos_add_le hp, hq.first,
    hq.num, ?_, hq.size⟩
  exact (hq.atStream hrec hp).1

theorem Range.cursor (hq : Range bf before frames after q) (hp : InFile bf)
    (hrec : Recorded (dev.file (.basket bgi.basketIdx)) bf (before ++ frames ++ after))
    (idx : Nat) :
    Cursor (Opened.mk bf before frames after
      (openedAt q idx (UInt32.ofNat (startPos bf before))))
      (openedAt q idx (UInt32.ofNat (startPos bf before))) [] frames where
  split := rfl
  readPos := (hq.atStream hrec hp).1
  low := by
    show q.beginIframeIdx.toInt ≤ q.beginIframeIdx.toInt ∧
      q.beginIframeIdx.toInt + ([].countP StoredFrame.isIframe : Nat) ≤ q.beginIframeIdx.toInt + 1
    rw [List.countP_nil]
    omega
  high := by
    show q.beginIframeIdx.toInt ≤
      q.beginIframeIdx.toInt + ([].countP StoredFrame.isIframe : Nat)
    rw [List.countP_nil]
    omega
  bf := rfl
  beginIframeIdx := rfl
  iframeNum := rfl
  beginPos := rfl
  fragmentSize := rfl

end Sessions

/-- Calls on one disk with one basket. -/
def Session.calls (dev : Dev) (bgi : BasketGlobalInfo) (w : Session) (cs : List ReadCall) :
    Session :=
  cs.foldl (fun w c => w.call dev bgi c) w

/-- Each of the calls goes to a slot of the stretch. -/
def Opened.AllWithin (o : Opened) (dev : Dev) (bgi : BasketGlobalInfo) :
    Session → List ReadCall → Bool
  | _, [] => true
  | w, c :: cs => o.Within bgi w.bri c && o.AllWithin dev bgi (w.call dev bgi c) cs

section Calls

variable {o : Opened} {dev : Dev} {bgi : BasketGlobalInfo}

theorem Opened.run_calls (hf : o.Finds dev bgi) {P : Session → Asked → Prop} :
    ∀ (cs : List ReadCall) {w : Session},
      (∀ cs₁ c cs₂, cs = cs₁ ++ c :: cs₂ → P (w.calls dev bgi cs₁) ⟨dev, bgi, c⟩) →
      Run (Restrict o.Step P) w (cs.map (Asked.mk dev bgi)) (w.calls dev bgi cs) := by
  intro cs
  induction cs with
  | nil => exact fun _ => .nil
  | cons c cs ih =>
      intro w hP
      have hfirst : Restrict o.Step P w ⟨dev, bgi, c⟩ (w.call dev bgi c) :=
        ⟨⟨hf, rfl⟩, hP [] c cs rfl⟩
      refine (Run.single hfirst).append (ih fun cs₁ c' cs₂ hcs => ?_)
      exact hP (c :: cs₁) c' cs₂ (by rw [hcs]; rfl)

theorem Opened.AllWithin.within {cs : List ReadCall} :
    ∀ {w : Session}, o.AllWithin dev bgi w cs = true → ∀ cs₁ c cs₂, cs = cs₁ ++ c :: cs₂ →
      o.Within bgi (w.calls dev bgi cs₁).bri c := by
  induction cs with
  | nil => exact fun _ cs₁ c cs₂ h => absurd h (by simp)
  | cons c cs ih =>
      intro w h cs₁ c' cs₂ hcs
      obtain ⟨hfirst, hrest⟩ := (Bool.and_eq_true_iff).1 h
      cases cs₁ with
      | nil =>
          obtain ⟨rfl, -⟩ := List.cons.inj hcs
          exact of_decide_eq_true hfirst
      | cons c₁ cs₁ =>
          obtain ⟨rfl, htail⟩ := List.cons.inj hcs
          exact ih hrest cs₁ c' cs₂ htail

end Calls

/-! ## A window with two of three I-frames -/

/-- Three I-frames that were recorded at these times. -/
def threeIframes : Basket := recordedAt [1000, 1100, 1200]

/-- The fragment that they are in. -/
def threeFragment : BasketFragment := threeIframes.bgi.bfList.getD 0 default

/-- What a query from the first to behind the second reports. -/
def firstTwo : RecordQueryInfo :=
  queryInfo 0 threeIframes.bgi threeFragment 0
    ⟨threeFragment.firstIframeIdx, threeFragment.beginTime, threeFragment.beginFramePos.toInt32⟩
    ⟨2, 1200, (threeFragment.beginFramePos + 152).toInt32⟩

theorem firstTwo_reported :
    (strgBasketQuery 3 threeIframes.dev 0 threeIframes.bgi threeFragment 0 1000 1150).result =
      .reported firstTwo := by
  rfl

theorem threeIframes_layout : Layout threeIframes.bgi ∧ threeIframes.dev.env.Reliable :=
  recordedAt_layout (by decide)

theorem threeIframes_bf :
    threeIframes.bgi.bfList[firstTwo.bfIdx.toUInt32.toNat]? = some threeFragment := by
  rfl

theorem threeIframes_recorded :
    Recorded (threeIframes.dev.file (.basket threeIframes.bgi.basketIdx)) threeFragment
      ([] ++ [storedAt 1000, storedAt 1100] ++ [storedAt 1200]) where
  bytes := by decide +kernel
  slots := rfl
  frames := by
    unfold Holds
    decide +kernel
  index := by
    unfold Holds
    decide +kernel

theorem firstTwo_sound : ∀ s ∈ [storedAt 1000, storedAt 1100], s.Sound := by
  intro s hs
  rcases List.mem_cons.1 hs with rfl | hs
  · exact storedAt_sound 1000
  · obtain rfl := List.mem_singleton.1 hs
    exact storedAt_sound 1100

theorem firstTwo_range :
    Range threeFragment [] [storedAt 1000, storedAt 1100] [storedAt 1200] firstTwo where
  first := rfl
  num := rfl
  size := by decide +kernel
  starts := ⟨_, _, rfl, rfl⟩
  ends := by decide

/-- The session that is opened on it. -/
def firstTwoOpened : BasketReadInfo :=
  openedAt firstTwo threeIframes.bgi.basketIdx (UInt32.ofNat (startPos threeFragment []))

theorem firstTwo_readStart :
    strgBasketReadStart threeIframes.dev threeIframes.bgi firstTwo =
      (some (firstTwoOpened, threeFragment.info), threeIframes.dev.wait,
        threeIframes.bgi.addReader) :=
  firstTwo_range.readStart threeIframes_layout.2 threeIframes_recorded
    (threeIframes_layout.1.inFile (List.mem_of_getElem? threeIframes_bf)) (by decide)
    threeIframes_bf

/-- The stretch that it is on. -/
def firstTwoStretch : Opened :=
  ⟨threeFragment, [], [storedAt 1000, storedAt 1100], [storedAt 1200], firstTwoOpened⟩

theorem firstTwo_finds : firstTwoStretch.Finds threeIframes.dev threeIframes.bgi where
  recorded := threeIframes_recorded
  first := rfl

/-- To the second frame, over it and back to it, to a time between the two, and
on by one. -/
def aroundCalls : List ReadCall :=
  [.seek 1, .read .normal 256, .read .back1Iframe 256, .set 1050, .read .forward1Iframe 256]

end Nvr.Storage
