import Mathlib.Data.List.Induction
import Mathlib.Data.List.Nodup
import Nvr.Server.SmartSearch

/-!
# What a heartbeat leaves

The length of a datagram is looked at only to see whether receiving failed. How
far a pass reads depends on what the datagram says, so it stays inside what was
received exactly for the datagrams that are long enough for it (`WellSized`).
A heartbeat that is as long as it says is stored entry by entry, the last one
first, and no other recorder's list changes: the device ids in the list are
distinct in every state reached.
-/

namespace Nvr.Server

/-! ## Datagrams -/

/-- A datagram in a buffer of its own. -/
def datagramMem (bytes : List UInt8) : ByteFile := fun p => bytes.getD p 0

/-- The header of a datagram. -/
def datagramHead (bytes : List UInt8) : SmartHead := smartHead (datagramMem bytes)

/-- `n` entries from `oft` on. -/
def entriesFrom (mem : ByteFile) : Nat → Nat → List SmartIpcInfo
  | 0, _ => []
  | n + 1, oft => smartIpcInfo mem oft :: entriesFrom mem n (oft + smartIpcInfoLen)

/-- The entries that the header of a datagram announces. -/
def entriesOf (bytes : List UInt8) : List SmartIpcInfo :=
  entriesFrom (datagramMem bytes) ((datagramHead bytes).len / smartIpcInfoLen) smartHeadLen

/-- A datagram that is taken for the heartbeat of another recorder. -/
structure Heartbeat (gMyDevId bytes : List UInt8) : Prop where
  header : smartHeadLen ≤ bytes.length
  magic : (datagramHead bytes).magic = nvrSmartMagic
  foreign : (datagramHead bytes).devid ≠ gMyDevId
  type : SmartCmdType.ofByte (datagramHead bytes).type = some .heartbeat

/-- What is received has the magic word; with the right one, it has a header; and with that
of another recorder's heartbeat, the entries that the header announces. -/
def WellSized (gMyDevId bytes : List UInt8) : Prop :=
  4 ≤ bytes.length ∧ ((datagramHead bytes).magic = nvrSmartMagic → smartHeadLen ≤ bytes.length ∧
    ((datagramHead bytes).devid ≠ gMyDevId →
      SmartCmdType.ofByte (datagramHead bytes).type = some .heartbeat →
        smartHeadLen + smartIpcInfoLen * ((datagramHead bytes).len / smartIpcInfoLen) ≤
          bytes.length))

/-- A camera list stored for a device id. -/
def Stored (list : List SmartInfo) (devid : List UInt8) (ipcs : List SmartIpcInfo) : Prop :=
  ∃ info ∈ list, info.szDevId = devid ∧ info.pIpcInfoList = ipcs

/-- A pass of the thread reads what it received and nothing else, and stores a heartbeat
whose length is right. -/
structure DatagramLaw (gMyDevId : List UInt8) (s : Smart) (r : Readable) : Prop where
  inBounds : ∀ bytes ip, r.recv = some (bytes, ip) →
    (nvrSmartSearchPass gMyDevId s r).2 ≤ bytes.length
  stored : ∀ bytes ip, r.recv = some (bytes, ip) → Heartbeat gMyDevId bytes →
    smartHeadLen + (datagramHead bytes).len = bytes.length →
      ∀ ipcs, Stored (nvrSmartSearchPass gMyDevId s r).1.gNvrInfoList
        (datagramHead bytes).devid ipcs ↔ ipcs = (entriesOf bytes).reverse
  others : ∀ bytes ip, r.recv = some (bytes, ip) → Heartbeat gMyDevId bytes →
    smartHeadLen + (datagramHead bytes).len = bytes.length →
      ∀ devid, devid ≠ (datagramHead bytes).devid → ∀ ipcs,
        Stored (nvrSmartSearchPass gMyDevId s r).1.gNvrInfoList devid ipcs ↔
          Stored s.gNvrInfoList devid ipcs

/-- No device id is in the list twice. -/
def Distinct (list : List SmartInfo) : Prop := (list.map SmartInfo.szDevId).Nodup

/-! ## The buffer -/

section Buffer

variable {r : Readable} {bytes : List UInt8} {ip : Option UInt32}

theorem netUdpRecv_length {bufSize : Nat} {last : RecvFrom} {nTryTime again : Nat}
    (h : netUdpRecv bufSize last nTryTime again = some (bytes, ip)) : bytes.length ≤ bufSize := by
  induction again generalizing nTryTime with
  | zero =>
      cases last with
      | error => cases h
      | datagram sent sender =>
          cases sent with
          | nil => cases h
          | cons b rest =>
              obtain ⟨rfl, -⟩ := Prod.mk.inj (Option.some.inj h)
              exact List.length_take_le _ _
  | succ again ih =>
      rw [netUdpRecv] at h
      split at h
      · exact ih h
      · obtain ⟨rfl, -⟩ := Prod.mk.inj (Option.some.inj h)
        exact Nat.zero_le _

/-- What was received is at the start of the buffer. -/
theorem mem_eq_datagramMem (h : r.recv = some (bytes, ip)) (szData : ByteFile) {p : Nat}
    (hp : p < bytes.length) : r.mem (szData.write 0 bytes) p = datagramMem bytes p := by
  have hlen : bytes.length ≤ smartDataLen := netUdpRecv_length h
  have hin : 0 ≤ p ∧ p < 0 + bytes.length := by omega
  rw [Readable.mem, if_pos (by omega), ByteFile.write, if_pos hin]
  rfl

variable {mem mem' : ByteFile}

theorem smartHead_magic_congr (h : ∀ p < 4, mem p = mem' p) :
    (smartHead mem).magic = (smartHead mem').magic := by
  show WordRecord.bytesWord _ _ _ _ = WordRecord.bytesWord _ _ _ _
  rw [h 0 (by decide), h 1 (by decide), h 2 (by decide), h 3 (by decide)]

theorem smartHead_congr (h : ∀ p < smartHeadLen, mem p = mem' p) :
    smartHead mem = smartHead mem' := by
  have hdevid : mem.read 8 nvrSerialnoLen = mem'.read 8 nvrSerialnoLen :=
    ByteFile.read_congr fun p _ hp => h p hp
  have hmagic := smartHead_magic_congr fun p hp => h p (Nat.lt_trans hp (by decide))
  rw [SmartHead.mk.injEq]
  refine ⟨hmagic, h 4 (by decide), ?_, hdevid⟩
  show (mem 6).toNat + 256 * (mem 7).toNat = (mem' 6).toNat + 256 * (mem' 7).toNat
  rw [h 6 (by decide), h 7 (by decide)]

theorem entriesFrom_congr {len : Nat} (h : ∀ p < len, mem p = mem' p) {n oft : Nat}
    (hoft : oft + smartIpcInfoLen * n ≤ len) : entriesFrom mem n oft = entriesFrom mem' n oft := by
  induction n generalizing oft with
  | zero => rfl
  | succ n ih =>
      have hsize : smartIpcInfoLen = 12 := rfl
      rw [hsize] at hoft
      have hmac : mem.read (oft + 4) nvrMacAddrLen = mem'.read (oft + 4) nvrMacAddrLen := by
        refine ByteFile.read_congr fun p _ hp => h p ?_
        have hmaclen : nvrMacAddrLen = 6 := rfl
        omega
      have hentry : smartIpcInfo mem oft = smartIpcInfo mem' oft := by
        rw [smartIpcInfo, smartIpcInfo, hmac, h oft (by omega), h (oft + 1) (by omega),
          h (oft + 2) (by omega), h (oft + 3) (by omega)]
      rw [entriesFrom, entriesFrom, hentry, ih (by rw [hsize]; omega)]

end Buffer

/-! ## The list -/

theorem addIpcInfos_eq (mem : ByteFile) (n oft : Nat) (info : SmartInfo) :
    addIpcInfos mem n oft info =
      { info with pIpcInfoList := (entriesFrom mem n oft).reverse ++ info.pIpcInfoList } := by
  induction n generalizing oft info with
  | zero => rfl
  | succ n ih =>
      rw [addIpcInfos, ih, entriesFrom]
      simp [nvrSmartAddIpcInfo]

section List

variable {list before after : List SmartInfo} {a : SmartInfo} {devid : List UInt8}

/-- In a list of distinct devices, nothing else has the device id of an entry. -/
theorem Distinct.ne_of_mem (h : Distinct (before ++ a :: after)) {info : SmartInfo}
    (hinfo : info ∈ before ∨ info ∈ after) : info.szDevId ≠ a.szDevId := by
  unfold Distinct at h
  rw [List.map_append, List.map_cons, List.nodup_middle, List.nodup_cons] at h
  intro heq
  refine h.1 (heq ▸ ?_)
  rw [← List.map_append]
  exact List.mem_map_of_mem (List.mem_append.2 hinfo)

/-- One device of the list gets other cameras. -/
theorem stored_replace (h : Distinct (before ++ a :: after)) {b : SmartInfo}
    (hb : b.szDevId = a.szDevId) (ipcs : List SmartIpcInfo) :
    Stored (before ++ b :: after) devid ipcs ↔
      if devid = a.szDevId then ipcs = b.pIpcInfoList
      else Stored (before ++ a :: after) devid ipcs := by
  constructor
  · rintro ⟨info, hinfo, rfl, rfl⟩
    obtain hinfo | rfl | hinfo : info ∈ before ∨ info = b ∨ info ∈ after := by
      simpa using hinfo
    · rw [if_neg (h.ne_of_mem (.inl hinfo))]
      exact ⟨info, by simp [hinfo], rfl, rfl⟩
    · rw [if_pos hb]
    · rw [if_neg (h.ne_of_mem (.inr hinfo))]
      exact ⟨info, by simp [hinfo], rfl, rfl⟩
  · intro hstored
    split at hstored
    · rename_i heq
      exact ⟨b, by simp, hb.trans heq.symm, hstored.symm⟩
    · rename_i hne
      obtain ⟨info, hinfo, rfl, rfl⟩ := hstored
      obtain hinfo | rfl | hinfo : info ∈ before ∨ info = a ∨ info ∈ after := by
        simpa using hinfo
      · exact ⟨info, by simp [hinfo], rfl, rfl⟩
      · exact absurd rfl hne
      · exact ⟨info, by simp [hinfo], rfl, rfl⟩

theorem stored_cons (hnew : ∀ info ∈ list, info.szDevId ≠ a.szDevId)
    (ipcs : List SmartIpcInfo) :
    Stored (a :: list) devid ipcs ↔
      if devid = a.szDevId then ipcs = a.pIpcInfoList else Stored list devid ipcs := by
  constructor
  · rintro ⟨info, hinfo, rfl, rfl⟩
    cases hinfo with
    | head => rw [if_pos rfl]
    | tail _ hinfo =>
        rw [if_neg (hnew info hinfo)]
        exact ⟨info, hinfo, rfl, rfl⟩
  · intro hstored
    split at hstored
    · rename_i heq
      exact ⟨a, by simp, heq.symm, hstored.symm⟩
    · obtain ⟨info, hinfo, hrest⟩ := hstored
      exact ⟨info, by simp [hinfo], hrest⟩

end List

/-- A camera counts as used elsewhere just if it is in a list that is stored. -/
theorem isSome_nvrSmartFindIpcInfo {list : List SmartInfo} {u32DevIp : UInt32} :
    (nvrSmartFindIpcInfo list u32DevIp).isSome ↔
      ∃ devid ipcs, Stored list devid ipcs ∧ ∃ ipc ∈ ipcs, ipc.u32DevIp = u32DevIp := by
  unfold nvrSmartFindIpcInfo
  rw [List.find?_isSome]
  constructor
  · rintro ⟨ipc, hipc, hip⟩
    obtain ⟨info, hinfo, hmem⟩ := List.mem_flatMap.1 hipc
    exact ⟨info.szDevId, info.pIpcInfoList, ⟨info, hinfo, rfl, rfl⟩, ipc, hmem, by simpa using hip⟩
  · rintro ⟨devid, ipcs, ⟨info, hinfo, -, rfl⟩, ipc, hipc, hip⟩
    exact ⟨ipc, List.mem_flatMap.2 ⟨info, hinfo, hipc⟩, by simpa using hip⟩

section Heartbeat

variable {list : List SmartInfo} {mem : ByteFile} {ip : UInt32}

/-- The entries of the heartbeat that is at the start of the memory. -/
def heartbeatEntries (mem : ByteFile) : List SmartIpcInfo :=
  entriesFrom mem ((smartHead mem).len / smartIpcInfoLen) smartHeadLen

/-- A heartbeat of a device in the list changes that entry, any other one adds an entry. -/
theorem nvrSmartRecvHeartbeat_cases (mem : ByteFile) (ip : UInt32) (list : List SmartInfo) :
    ∃ b : SmartInfo, b.szDevId = (smartHead mem).devid ∧
      b.pIpcInfoList = (heartbeatEntries mem).reverse ∧
      ((∃ before a after, list = before ++ a :: after ∧ a.szDevId = b.szDevId ∧
          nvrSmartRecvHeartbeat mem ip list = before ++ b :: after) ∨
        (∀ info ∈ list, info.szDevId ≠ b.szDevId) ∧
          nvrSmartRecvHeartbeat mem ip list = b :: list) := by
  refine ⟨⟨ip, (smartHead mem).devid, 0, (heartbeatEntries mem).reverse⟩, rfl, rfl, ?_⟩
  simp only [nvrSmartRecvHeartbeat, addIpcInfos_eq]
  split
  · rename_i list' hfirst
    left
    obtain ⟨before, a, after, hat, rfl⟩ := FirstAt.of_onFirst hfirst
    have ha : a.szDevId = (smartHead mem).devid := by simpa using hat.found
    refine ⟨before, a, after, hat.eq, ha, ?_⟩
    rw [ha, List.append_nil]
    rfl
  · rename_i hnone
    right
    refine ⟨fun info hinfo => ?_, ?_⟩
    · simpa using onFirst_eq_none.1 hnone info hinfo
    · rw [List.append_nil]
      rfl

theorem Distinct.nvrSmartRecvHeartbeat (h : Distinct list) :
    Distinct (nvrSmartRecvHeartbeat mem ip list) := by
  obtain ⟨b, -, -, ⟨before, a, after, rfl, ha, heq⟩ | ⟨hnew, heq⟩⟩ :=
    nvrSmartRecvHeartbeat_cases mem ip list
  · rw [heq]
    unfold Distinct at h ⊢
    rwa [List.map_append, List.map_cons, ← ha, ← List.map_cons, ← List.map_append]
  · rw [heq]
    unfold Distinct at h ⊢
    rw [List.map_cons, List.nodup_cons]
    refine ⟨fun hmem => ?_, h⟩
    obtain ⟨info, hinfo, hid⟩ := List.mem_map.1 hmem
    exact hnew info hinfo hid

/-- What is stored after a heartbeat: its entries for its device, and what was stored
before for any other. -/
theorem stored_nvrSmartRecvHeartbeat (h : Distinct list) (devid : List UInt8)
    (ipcs : List SmartIpcInfo) :
    Stored (nvrSmartRecvHeartbeat mem ip list) devid ipcs ↔
      if devid = (smartHead mem).devid then ipcs = (heartbeatEntries mem).reverse
      else Stored list devid ipcs := by
  obtain ⟨b, hdevid, hipcs, ⟨before, a, after, rfl, ha, heq⟩ | ⟨hnew, heq⟩⟩ :=
    nvrSmartRecvHeartbeat_cases mem ip list
  · rw [heq, stored_replace h ha.symm, ha, hdevid, hipcs]
  · rw [heq, stored_cons hnew, hdevid, hipcs]

theorem Distinct.nvrSmartRecvShutdown (h : Distinct list) :
    Distinct (nvrSmartRecvShutdown mem list) :=
  h.sublist (List.eraseP_sublist.map _)

theorem nvrSmartTimeout_sublist (list : List SmartInfo) :
    ((nvrSmartTimeout list).map SmartInfo.szDevId).Sublist (list.map SmartInfo.szDevId) := by
  induction list with
  | nil => exact .slnil
  | cons info list ih =>
      unfold nvrSmartTimeout at ih ⊢
      rw [List.filterMap_cons]
      split
      · exact ih.cons _
      · rename_i kept hage
        split at hage
        · cases hage
        · obtain rfl := Option.some.inj hage
          exact ih.cons_cons _

end Heartbeat

/-! ## A pass -/

section Pass

variable {gMyDevId bytes : List UInt8} {s : Smart} {r : Readable} {ip : Option UInt32}

/-- What is seen from the start of the buffer on after something was received. -/
def Readable.view (r : Readable) (s : Smart) (bytes : List UInt8) : ByteFile :=
  r.mem (s.szData.write 0 bytes)

/-- The state after something was received, and before it is looked at. -/
def Smart.receive (s : Smart) (bytes : List UInt8) (ip : Option UInt32) : Smart :=
  { s with
    szData := s.szData.write 0 bytes
    sockAddr := ip.getD s.sockAddr }

theorem nvrSmartSearchPass_some (h : r.recv = some (bytes, ip)) :
    nvrSmartSearchPass gMyDevId s r =
      if (smartHead (r.view s bytes)).magic ≠ nvrSmartMagic then (s.receive bytes ip, 4)
      else if (smartHead (r.view s bytes)).devid = gMyDevId then
        (s.receive bytes ip, smartHeadLen)
      else
        match SmartCmdType.ofByte (smartHead (r.view s bytes)).type with
        | some .heartbeat =>
            ({ s.receive bytes ip with
                gNvrInfoList := nvrSmartRecvHeartbeat (r.view s bytes) (ip.getD s.sockAddr)
                  s.gNvrInfoList
                gRecvInfo := true },
              smartHeadLen + smartIpcInfoLen *
                ((smartHead (r.view s bytes)).len / smartIpcInfoLen))
        | some .shutdown =>
            ({ s.receive bytes ip with
                gNvrInfoList := nvrSmartRecvShutdown (r.view s bytes) s.gNvrInfoList },
              smartHeadLen)
        | some .queryInfo => (s.receive bytes ip, smartHeadLen)
        | _ => (s.receive bytes ip, smartHeadLen) := by
  unfold nvrSmartSearchPass
  rw [h]
  rfl

/-- The device ids stay distinct. -/
theorem Distinct.smartStep (h : Distinct s.gNvrInfoList) (e : SmartEvent) :
    Distinct (smartStep gMyDevId s e).gNvrInfoList := by
  cases e with
  | timeout => exact h.sublist (nvrSmartTimeout_sublist _)
  | readable r =>
      show Distinct (nvrSmartSearchPass gMyDevId s r).1.gNvrInfoList
      cases hrecv : r.recv with
      | none =>
          unfold nvrSmartSearchPass
          rw [hrecv]
          exact h
      | some received =>
          obtain ⟨bytes, ip⟩ := received
          rw [nvrSmartSearchPass_some hrecv]
          split
          · exact h
          · split
            · exact h
            · split
              · exact h.nvrSmartRecvHeartbeat
              · exact h.nvrSmartRecvShutdown
              · exact h
              · exact h

/-- With a whole header in it, the buffer has the header of the datagram. -/
theorem smartHead_view (h : r.recv = some (bytes, ip)) (hlen : smartHeadLen ≤ bytes.length) :
    smartHead (r.view s bytes) = datagramHead bytes :=
  smartHead_congr fun _ hp => mem_eq_datagramMem h s.szData (Nat.lt_of_lt_of_le hp hlen)

/-- A pass stays inside what it received just for a datagram that is long enough. -/
theorem inBounds_iff_wellSized (h : r.recv = some (bytes, ip)) :
    (nvrSmartSearchPass gMyDevId s r).2 ≤ bytes.length ↔ WellSized gMyDevId bytes := by
  have hhead : 4 ≤ smartHeadLen := by decide
  rw [nvrSmartSearchPass_some h]
  by_cases hfour : 4 ≤ bytes.length
  · have hmagic : (smartHead (r.view s bytes)).magic = (datagramHead bytes).magic :=
      smartHead_magic_congr fun _ hp =>
        mem_eq_datagramMem h s.szData (Nat.lt_of_lt_of_le hp hfour)
    rw [hmagic]
    by_cases hright : (datagramHead bytes).magic = nvrSmartMagic
    · rw [if_neg (not_not.2 hright)]
      by_cases hlen : smartHeadLen ≤ bytes.length
      · rw [smartHead_view h hlen]
        by_cases hown : (datagramHead bytes).devid = gMyDevId
        · rw [if_pos hown]
          exact iff_of_true hlen ⟨hfour, fun _ => ⟨hlen, fun hforeign => absurd hown hforeign⟩⟩
        · rw [if_neg hown]
          split
          · rename_i htype
            exact ⟨fun hle => ⟨hfour, fun _ => ⟨hlen, fun _ _ => hle⟩⟩,
              fun hsized => (hsized.2 hright).2 hown htype⟩
          all_goals
            rename_i htype
            refine iff_of_true hlen ⟨hfour, fun _ => ⟨hlen, fun _ hheartbeat => ?_⟩⟩
            simp_all
      · refine iff_of_false (fun hle => hlen ?_) fun hsized => hlen (hsized.2 hright).1
        refine Nat.le_trans ?_ hle
        split
        · exact Nat.le_refl _
        · split
          · exact Nat.le_add_right _ _
          all_goals exact Nat.le_refl _
    · rw [if_pos hright]
      exact iff_of_true hfour ⟨hfour, fun heq => absurd heq hright⟩
  · refine iff_of_false (fun hle => hfour ?_) fun hsized => hfour hsized.1
    refine Nat.le_trans ?_ hle
    split
    · exact Nat.le_refl _
    · split
      · exact hhead
      · split
        · exact Nat.le_trans hhead (Nat.le_add_right _ _)
        all_goals exact hhead

/-- After a heartbeat that has the length it says, its entries are stored for its device,
and nothing else changes. -/
theorem stored_of_heartbeat (hdistinct : Distinct s.gNvrInfoList)
    (h : r.recv = some (bytes, ip)) (hbeat : Heartbeat gMyDevId bytes)
    (hlen : smartHeadLen + (datagramHead bytes).len = bytes.length) (devid : List UInt8)
    (ipcs : List SmartIpcInfo) :
    Stored (nvrSmartSearchPass gMyDevId s r).1.gNvrInfoList devid ipcs ↔
      if devid = (datagramHead bytes).devid then ipcs = (entriesOf bytes).reverse
      else Stored s.gNvrInfoList devid ipcs := by
  have hhead : smartHead (r.view s bytes) = datagramHead bytes := smartHead_view h hbeat.header
  have hentries : heartbeatEntries (r.view s bytes) = entriesOf bytes := by
    unfold heartbeatEntries entriesOf
    rw [hhead]
    refine entriesFrom_congr (fun _ hp => mem_eq_datagramMem h s.szData hp) ?_
    have hdiv := Nat.mul_div_le (datagramHead bytes).len smartIpcInfoLen
    omega
  rw [nvrSmartSearchPass_some h, hhead, if_neg (not_not.2 hbeat.magic), if_neg hbeat.foreign,
    hbeat.type]
  show Stored (nvrSmartRecvHeartbeat (r.view s bytes) (ip.getD s.sockAddr) s.gNvrInfoList)
    devid ipcs ↔ _
  rw [stored_nvrSmartRecvHeartbeat hdistinct, hhead, hentries]

theorem datagramLaw_iff (hdistinct : Distinct s.gNvrInfoList) :
    DatagramLaw gMyDevId s r ↔
      ∀ bytes ip, r.recv = some (bytes, ip) → WellSized gMyDevId bytes := by
  constructor
  · intro hlaw bytes ip h
    exact (inBounds_iff_wellSized h).1 (hlaw.inBounds bytes ip h)
  · intro hsized
    refine ⟨fun bytes ip h => (inBounds_iff_wellSized h).2 (hsized bytes ip h), ?_, ?_⟩
    · intro bytes ip h hbeat hlen ipcs
      rw [stored_of_heartbeat hdistinct h hbeat hlen, if_pos rfl]
    · intro bytes ip h hbeat hlen devid hne ipcs
      rw [stored_of_heartbeat hdistinct h hbeat hlen, if_neg hne]

end Pass

/-! ## Runs -/

section Run

variable {gMyDevId : List UInt8} {szData : ByteFile} {sockAddr : UInt32}

theorem distinct_smartRun (events : List SmartEvent) :
    Distinct (smartRun gMyDevId szData sockAddr events).gNvrInfoList := by
  induction events using List.reverseRecOn with
  | nil => exact List.nodup_nil
  | append_singleton events e ih =>
      unfold smartRun at ih ⊢
      rw [List.foldl_append]
      exact ih.smartStep e

/-- In a run every datagram is read inside its bounds, and heartbeats are stored as they
are, just if every datagram received is long enough for what it says. -/
theorem datagramLaw_run_iff (gMyDevId : List UInt8) (szData : ByteFile) (sockAddr : UInt32)
    (events : List SmartEvent) :
    (∀ pre r post, events = pre ++ .readable r :: post →
        DatagramLaw gMyDevId (smartRun gMyDevId szData sockAddr pre) r) ↔
      ∀ r, .readable r ∈ events → ∀ bytes ip, r.recv = some (bytes, ip) →
        WellSized gMyDevId bytes := by
  constructor
  · intro hlaw r hr
    obtain ⟨pre, post, rfl⟩ := List.append_of_mem hr
    exact (datagramLaw_iff (distinct_smartRun pre)).1 (hlaw pre r post rfl)
  · rintro hsized pre r post rfl
    exact (datagramLaw_iff (distinct_smartRun pre)).2 (hsized r (by simp))

/-- The header of a heartbeat with no entries in it, that says there is one. -/
def shortHeartbeat : List UInt8 :=
  [0x53, 0x4D, 0x52, 0x54, 0, 0, 12, 0] ++ List.replicate 48 1

/-- An entry is decoded from bytes that were not received. -/
theorem not_datagramLaw :
    ¬ ∀ (gMyDevId : List UInt8) (szData : ByteFile) (sockAddr : UInt32)
      (events : List SmartEvent) (pre : List SmartEvent) (r : Readable) (post : List SmartEvent),
      events = pre ++ .readable r :: post →
        DatagramLaw gMyDevId (smartRun gMyDevId szData sockAddr pre) r := by
  intro h
  have hlaw := h (List.replicate 48 0) (fun _ => 0) 0 _ [] 
    ⟨0, .datagram shortHeartbeat 1, fun _ => 0⟩ [] rfl
  exact absurd (hlaw.inBounds shortHeartbeat (some 1) (by decide)) (by decide)

end Run

end Nvr.Server
