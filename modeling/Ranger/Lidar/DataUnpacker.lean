import Ranger.Lidar.NormalNode
import Ranger.Lidar.Stream

/-!
# 受信から測定まで

`LIDARSampleDataUnpackerImpl` と、`SlamtecLidarDriver::onProtocolMessageDecoded`。応答は種類で測定の復号器に分けられ、復号器のない
応答は、待たれている応答として残される。
-/

namespace Ranger.Lidar

/-- 聞き手に渡すもの。 -/
inductive Published where
  | node (n : NodeHq)
  | newScanReset

/-- `UnpackerHandler_NormalNode` の他の復号器。 -/
structure Handlers (M : Type) where
  registered : UInt8 → Bool
  onData : UInt8 → M → List UInt8 → M × List Published
  reset : UInt8 → M → M

/-- `RPLIDAR_ANS_TYPE_MEASUREMENT`。 -/
def ansTypeMeasurement : UInt8 := 0x81

structure Unpacker (M : Type) where
  enabled : Bool
  lastActiveAnsType : UInt8
  lastActiveHandler : Option UInt8
  normal : NormalNode
  others : UInt8 → M

section Model

variable {M : Type} (hs : Handlers M)

namespace Unpacker

def clearCache (u : Unpacker M) : Unpacker M :=
  match u.lastActiveHandler with
  | none => u
  | some t =>
      if t = ansTypeMeasurement then { u with normal := u.normal.reset }
      else { u with others := fun i => if i = t then hs.reset t (u.others t) else u.others i }

def reset (u : Unpacker M) : Unpacker M :=
  { u.clearCache hs with lastActiveHandler := none, lastActiveAnsType := 0 }

def enable (u : Unpacker M) : Unpacker M := { u with enabled := true }.reset hs

def disable (u : Unpacker M) : Unpacker M := { u with enabled := false }.reset hs

def onSelectHandler (u : Unpacker M) (ansType : UInt8) : Unpacker M where
  enabled := u.enabled
  lastActiveAnsType := ansType
  lastActiveHandler := if ansType = ansTypeMeasurement || hs.registered ansType then some ansType else none
  normal := u.normal
  others := u.others

/-- 種類が変わると、前の復号器を戻して選び直す。 -/
def select (u : Unpacker M) (ansType : UInt8) : Unpacker M :=
  if u.lastActiveAnsType ≠ ansType then (u.reset hs).onSelectHandler hs ansType else u

/-- 後の状態、渡した測定、復号器があったか。 -/
def dispatch (u : Unpacker M) (buf : List UInt8) : Unpacker M × List Published × Bool :=
  match u.lastActiveHandler with
  | none => (u, [], false)
  | some t =>
      if t = ansTypeMeasurement then
        ({ u with normal := (u.normal.onData buf).1 }, (u.normal.onData buf).2.map .node, true)
      else
        let r := hs.onData t (u.others t) buf
        ({ u with others := fun i => if i = t then r.1 else u.others i }, r.2, true)

def onSampleData (u : Unpacker M) (ansType : UInt8) (buf : List UInt8) : Unpacker M × List Published × Bool :=
  if u.enabled then (u.select hs ansType).dispatch hs buf else (u, [], false)

end Unpacker

structure Driver (M : Type) where
  codec : Codec
  unpacker : Unpacker M
  waitingPacketType : ℕ
  lastAnsPkt : Option ProtocolMessage

namespace Driver

def withCodec (d : Driver M) (c : Codec) : Driver M := { d with codec := c }

def onProtocolMessageDecoded (d : Driver M) (msg : ProtocolMessage) : Driver M × List Published :=
  let r := d.unpacker.onSampleData hs msg.cmd msg.payload
  let d' := { d with unpacker := r.1 }
  if r.2.2 then (d', r.2.1)
  else if msg.cmd.toNat = d.waitingPacketType then ({ d' with lastAnsPkt := some msg }, r.2.1)
  else (d', r.2.1)

def onMessages (d : Driver M) : List ProtocolMessage → Driver M × List Published
  | [] => (d, [])
  | m :: ms =>
      let r := d.onProtocolMessageDecoded hs m
      let s := r.1.onMessages ms
      (s.1, r.2 ++ s.2)

/-- 受け取ったバイトを復号して渡す。 -/
def onRx (d : Driver M) (bs : List UInt8) : Option (Driver M × List Published) :=
  (d.codec.onDecodeData bs).map fun r => (d.withCodec r.1).onMessages hs r.2

def onRxAll (d : Driver M) : List (List UInt8) → Option (Driver M × List Published)
  | [] => some (d, [])
  | bs :: rest => do
      let r ← d.onRx hs bs
      let s ← r.1.onRxAll rest
      pure (s.1, r.2 ++ s.2)

/-- `_disableDataGrabbing`。 -/
def disableDataGrabbing (d : Driver M) : Driver M :=
  { d with unpacker := d.unpacker.disable hs, codec := d.codec.onDecodeReset }

/-- 応答を待つ命令を送る前の準備。 -/
def sendCommandWithResponse (d : Driver M) (responseType : ℕ) : Driver M :=
  { d.disableDataGrabbing hs with waitingPacketType := responseType }

def enable (d : Driver M) : Driver M := { d with unpacker := d.unpacker.enable hs }

def create (others : UInt8 → M) (waitingPacketType : ℕ) : Driver M :=
  ⟨.create, ⟨false, 0, none, .create, others⟩, waitingPacketType, none⟩

end Driver

end Model

/-! ## 応答の列 -/

section Messages

variable {M : Type} {hs : Handlers M} {d : Driver M}

theorem onMessages_append (d : Driver M) (ms ms' : List ProtocolMessage) :
    d.onMessages hs (ms ++ ms') =
      (((d.onMessages hs ms).1.onMessages hs ms').1, (d.onMessages hs ms).2 ++ ((d.onMessages hs ms).1.onMessages hs ms').2) := by
  induction ms generalizing d with
  | nil => rfl
  | cons m ms ih => simp [Driver.onMessages, ih]

theorem onProtocolMessageDecoded_codec (d : Driver M) (c : Codec) (m : ProtocolMessage) :
    (d.withCodec c).onProtocolMessageDecoded hs m =
      ((d.onProtocolMessageDecoded hs m).1.withCodec c, (d.onProtocolMessageDecoded hs m).2) := by
  by_cases hdone : (d.unpacker.onSampleData hs m.cmd m.payload).2.2 = true
  · simp [Driver.onProtocolMessageDecoded, Driver.withCodec, hdone]
  · by_cases hwait : m.cmd.toNat = d.waitingPacketType
    · simp [Driver.onProtocolMessageDecoded, Driver.withCodec, hdone, hwait]
    · simp [Driver.onProtocolMessageDecoded, Driver.withCodec, hdone, hwait]

theorem onMessages_codec (d : Driver M) (c : Codec) (ms : List ProtocolMessage) :
    (d.withCodec c).onMessages hs ms = ((d.onMessages hs ms).1.withCodec c, (d.onMessages hs ms).2) := by
  induction ms generalizing d with
  | nil => rfl
  | cons m ms ih => simp only [Driver.onMessages, onProtocolMessageDecoded_codec, ih]

/-- 応答は、どう区切って受け取っても、同じ順に渡される。 -/
theorem onRxAll_eq {chunks : List (List UInt8)} {c : Codec} {ms : List ProtocolMessage}
    (h : d.codec.onDecodeAll chunks = some (c, ms)) :
    d.onRxAll hs chunks = some ((d.onMessages hs ms).1.withCodec c, (d.onMessages hs ms).2) := by
  induction chunks generalizing d ms with
  | nil =>
      cases h
      rfl
  | cons bs chunks ih =>
      obtain ⟨r, hr, hrest⟩ := Option.bind_eq_some_iff.mp h
      obtain ⟨s, hs', hend⟩ := Option.bind_eq_some_iff.mp hrest
      cases hend
      have hrx : d.onRx hs bs = some ((d.onMessages hs r.2).1.withCodec r.1, (d.onMessages hs r.2).2) := by
        rw [Driver.onRx, hr, Option.map_some, onMessages_codec]
      have hall := ih (d := (d.onMessages hs r.2).1.withCodec r.1) hs'
      rw [onMessages_codec] at hall
      rw [Driver.onRxAll, hrx, onMessages_append, Option.bind_eq_bind, Option.bind_some, hall]
      rfl

/-- 止めている間は、待たれている応答だけが残る。 -/
theorem onMessages_disabled (hd : d.unpacker.enabled = false) (ms : List ProtocolMessage) :
    d.onMessages hs ms =
      ({ d with lastAnsPkt := (ms.filter fun m => m.cmd.toNat = d.waitingPacketType).getLast?.or d.lastAnsPkt }, []) := by
  induction ms generalizing d with
  | nil => rfl
  | cons m ms ih =>
      have hsample : d.unpacker.onSampleData hs m.cmd m.payload = (d.unpacker, [], false) := by
        simp [Unpacker.onSampleData, hd]
      by_cases hwait : m.cmd.toNat = d.waitingPacketType
      · have hmsg : d.onProtocolMessageDecoded hs m = ({ d with lastAnsPkt := some m }, []) := by
          simp [Driver.onProtocolMessageDecoded, hsample, hwait]
        rw [Driver.onMessages, hmsg, ih (d := { d with lastAnsPkt := some m }) hd, List.filter_cons_of_pos (by simpa using hwait),
          List.getLast?_cons]
        cases (ms.filter fun m => m.cmd.toNat = d.waitingPacketType).getLast? <;> rfl
      · have hmsg : d.onProtocolMessageDecoded hs m = (d, []) := by
          simp [Driver.onProtocolMessageDecoded, hsample, hwait]
        rw [Driver.onMessages, hmsg, ih hd, List.filter_cons_of_neg (by simpa using hwait)]
        rfl

end Messages

/-! ## 測定 -/

section Measuring

variable {M : Type} {hs : Handlers M} {d : Driver M} {u : Unpacker M}

/-- 復号器の配列の長さは変わらず、選ばれていないときは空である。 -/
structure Rested (u : Unpacker M) : Prop where
  length : u.normal.cachedScanNodeBuf.length = 5
  pos : u.lastActiveHandler ≠ some ansTypeMeasurement → u.normal.cachedScanNodeBufPos = 0

/-- 測定の復号器は、初めに戻っている。 -/
structure Cleared (u : Unpacker M) : Prop where
  waiting : Waiting u.normal
  handler : u.lastActiveHandler = none
  ansType : u.lastActiveAnsType = 0

theorem length_onData (h : NormalNode) (bs : List UInt8) :
    (h.onData bs).1.cachedScanNodeBuf.length = h.cachedScanNodeBuf.length := by
  induction bs generalizing h with
  | nil => rfl
  | cons b bs ih =>
      have hbyte : (h.onByte b).1.cachedScanNodeBuf.length = h.cachedScanNodeBuf.length := by
        simp only [NormalNode.onByte]
        split
        · split <;> simp [NormalNode.store]
        · split <;> simp [NormalNode.store]
        · simp
        · simp [NormalNode.store]
      rw [NormalNode.onData, ih, hbyte]

theorem Rested.reset (h : Rested u) : Cleared (u.reset hs) := by
  cases hhandler : u.lastActiveHandler with
  | none =>
      have hclear : u.clearCache hs = u := by simp [Unpacker.clearCache, hhandler]
      refine ⟨?_, rfl, rfl⟩
      rw [Unpacker.reset, hclear]
      exact ⟨h.pos (by simp [hhandler]), h.length⟩
  | some t =>
      by_cases ht : t = ansTypeMeasurement
      · subst ht
        refine ⟨?_, rfl, rfl⟩
        simp only [Unpacker.reset, Unpacker.clearCache, hhandler, if_true]
        exact ⟨rfl, h.length⟩
      · refine ⟨?_, rfl, rfl⟩
        simp only [Unpacker.reset, Unpacker.clearCache, hhandler, if_neg ht]
        exact ⟨h.pos (by simpa [hhandler] using ht), h.length⟩

theorem Rested.disable (h : Rested u) : Cleared (u.disable hs) :=
  Rested.reset ⟨h.length, h.pos⟩

theorem Cleared.enable (h : Cleared u) : Cleared (u.enable hs) :=
  Rested.reset ⟨h.waiting.length, fun _ => h.waiting.pos⟩

theorem Rested.select (h : Rested u) (ansType : UInt8) : Rested (u.select hs ansType) := by
  rw [Unpacker.select]
  split
  · have hcleared : Cleared (u.reset hs) := h.reset
    exact ⟨hcleared.waiting.length, fun _ => hcleared.waiting.pos⟩
  · exact h

theorem Rested.dispatch (h : Rested u) (buf : List UInt8) : Rested (u.dispatch hs buf).1 := by
  cases hhandler : u.lastActiveHandler with
  | none => simpa [Unpacker.dispatch, hhandler] using h
  | some t =>
      by_cases ht : t = ansTypeMeasurement
      · subst ht
        have hlength := (length_onData u.normal buf).trans h.length
        simp only [Unpacker.dispatch, hhandler, if_true]
        exact ⟨hlength, fun hne => absurd rfl (hhandler ▸ hne)⟩
      · simp only [Unpacker.dispatch, hhandler, if_neg ht]
        exact ⟨h.length, fun _ => h.pos (by simpa [hhandler] using ht)⟩

theorem Rested.onSampleData (h : Rested u) (ansType : UInt8) (buf : List UInt8) :
    Rested (u.onSampleData hs ansType buf).1 := by
  rw [Unpacker.onSampleData]
  split
  · exact (h.select ansType).dispatch buf
  · exact h

theorem rested_onMessages (h : Rested d.unpacker) (ms : List ProtocolMessage) : Rested (d.onMessages hs ms).1.unpacker := by
  induction ms generalizing d with
  | nil => exact h
  | cons m ms ih =>
      apply ih
      have hsample : Rested (d.unpacker.onSampleData hs m.cmd m.payload).1 := h.onSampleData m.cmd m.payload
      simp only [Driver.onProtocolMessageDecoded]
      split_ifs <;> exact hsample

theorem onSampleData_active (henabled : u.enabled = true) (htype : u.lastActiveAnsType = ansTypeMeasurement)
    (hhandler : u.lastActiveHandler = some ansTypeMeasurement) (buf : List UInt8) :
    u.onSampleData hs ansTypeMeasurement buf =
      ({ u with normal := (u.normal.onData buf).1 }, (u.normal.onData buf).2.map .node, true) := by
  have hselect : u.select hs ansTypeMeasurement = u := by simp [Unpacker.select, htype]
  simp [Unpacker.onSampleData, Unpacker.dispatch, henabled, hselect, hhandler]

theorem onMessages_active (henabled : d.unpacker.enabled = true) (htype : d.unpacker.lastActiveAnsType = ansTypeMeasurement)
    (hhandler : d.unpacker.lastActiveHandler = some ansTypeMeasurement) (repeats : List (List UInt8)) :
    (d.onMessages hs (repeats.map (ProtocolMessage.mk ansTypeMeasurement))).2 =
      (d.unpacker.normal.onDataAll repeats).map .node := by
  induction repeats generalizing d with
  | nil => rfl
  | cons r repeats ih =>
      have hmsg : d.onProtocolMessageDecoded hs ⟨ansTypeMeasurement, r⟩ =
          ({ d with unpacker := { d.unpacker with normal := (d.unpacker.normal.onData r).1 } },
            (d.unpacker.normal.onData r).2.map .node) := by
        simp [Driver.onProtocolMessageDecoded, onSampleData_active henabled htype hhandler]
      rw [List.map_cons, Driver.onMessages, hmsg]
      have hrest := ih (d := { d with unpacker := { d.unpacker with normal := (d.unpacker.normal.onData r).1 } })
        henabled htype hhandler
      simp only [hrest, NormalNode.onDataAll, List.map_append]

theorem enabled_clearCache : (u.clearCache hs).enabled = u.enabled := by
  rw [Unpacker.clearCache]
  split
  · rfl
  · split_ifs <;> rfl

/-- 初めの測定の応答で、復号器が選ばれる。 -/
theorem onMessages_cleared (hs : Handlers M) (henabled : d.unpacker.enabled = true) (h : Cleared d.unpacker) (repeats : List (List UInt8)) :
    ∃ n, Waiting n ∧ (d.onMessages hs (repeats.map (ProtocolMessage.mk ansTypeMeasurement))).2 =
      (n.onDataAll repeats).map .node := by
  let u' := d.unpacker.select hs ansTypeMeasurement
  have hne : d.unpacker.lastActiveAnsType ≠ ansTypeMeasurement := by
    rw [h.ansType]
    decide
  have hselect : u' = (d.unpacker.reset hs).onSelectHandler hs ansTypeMeasurement := if_pos hne
  have hclear : d.unpacker.clearCache hs = d.unpacker := by simp [Unpacker.clearCache, h.handler]
  have hnormal : u'.normal = d.unpacker.normal := by simp [hselect, Unpacker.onSelectHandler, Unpacker.reset, hclear]
  have henabled' : u'.enabled = true := by simp [hselect, Unpacker.onSelectHandler, Unpacker.reset, hclear, henabled]
  have htype : u'.lastActiveAnsType = ansTypeMeasurement := by simp [hselect, Unpacker.onSelectHandler]
  have hhandler : u'.lastActiveHandler = some ansTypeMeasurement := by simp [hselect, Unpacker.onSelectHandler]
  refine ⟨u'.normal, hnormal ▸ h.waiting, ?_⟩
  cases repeats with
  | nil => rfl
  | cons r repeats =>
      have hagain : u'.select hs ansTypeMeasurement = u' := by simp [Unpacker.select, htype]
      have hsample : d.unpacker.onSampleData hs ansTypeMeasurement r = u'.onSampleData hs ansTypeMeasurement r := by
        rw [Unpacker.onSampleData, Unpacker.onSampleData, if_pos henabled, if_pos henabled', hagain]
      have hmessages : d.onMessages hs ((r :: repeats).map (ProtocolMessage.mk ansTypeMeasurement)) =
          { d with unpacker := u' }.onMessages hs ((r :: repeats).map (ProtocolMessage.mk ansTypeMeasurement)) := by
        simp only [List.map_cons, Driver.onMessages, Driver.onProtocolMessageDecoded, hsample]
      rw [hmessages]
      exact onMessages_active henabled' htype hhandler (r :: repeats)

end Measuring

theorem onRxAll_create {M : Type} (hs : Handlers M) (others : UInt8 → M) (w : ℕ) (before : List (List UInt8)) :
    ∃ d ps, (Driver.create others w).onRxAll hs before = some (d, ps) ∧ d.codec.len < 2 ^ 32 ∧ Rested d.unpacker := by
  obtain ⟨c, ms, hdecodes, htrace⟩ := exists_trace before
  have hrested : Rested (Driver.create others w).unpacker := ⟨rfl, fun _ => rfl⟩
  exact ⟨_, _, onRxAll_eq hdecodes, htrace.len_lt, rested_onMessages hrested ms⟩

/-- 何を受け取った後でも、止めて送った命令への応答は、待たれている種類の最後のものが残り、測定は渡されない。再び始めると、続く測定の
応答から、測定だけが全て渡される。 -/
theorem onRxAll_scan {M : Type} (hs : Handlers M) (others : UInt8 → M) (w w' : ℕ)
    (before : List (List UInt8)) {during chunks : List (List UInt8)} {parts : List Part} {junk junk' : List UInt8}
    (hparts : WellFormed parts) (hjunk : Quiet junk) (hduring : during.flatten = stream parts ++ junk)
    {size flag : ℕ} {repeats : List (List UInt8)} {rest tail : List UInt8} {segs : List Segment}
    (hjunk' : Quiet junk') (hpos : 0 < size) (hsmall : size < 2 ^ 30) (hflag : flag < 4) (hodd : flag % 2 = 1)
    (hlength : ∀ r ∈ repeats, r.length = size) (hrest : rest.length < size)
    (hchunks : chunks.flatten = junk' ++ header size flag ansTypeMeasurement ++ repeats.flatten ++ rest)
    (hreads : Reads repeats.flatten segs tail) :
    ∃ d₁ ps₁ d₂ d₃, (Driver.create others w).onRxAll hs before = some (d₁, ps₁) ∧
      (d₁.sendCommandWithResponse hs w').onRxAll hs during = some (d₂, []) ∧
      d₂.lastAnsPkt = ((delivered parts).filter fun m => m.cmd.toNat = w').getLast?.or d₁.lastAnsPkt ∧
      (d₂.enable hs).onRxAll hs chunks = some (d₃, (nodes segs).map .node) := by
  obtain ⟨d₁, ps₁, hbefore, hlen, hrested⟩ := onRxAll_create hs others w before
  have hidle : Idle d₁.codec.onDecodeReset := idle_onDecodeReset hlen
  obtain ⟨c₁, hstream, hidle₁⟩ := decodes_stream hidle hparts
  obtain ⟨c₂, hquiet, hidle₂⟩ := decodes_quiet hjunk hidle₁
  have hanswers := hstream.append hquiet
  rw [List.append_nil, ← hduring] at hanswers
  have hdisabled : (d₁.sendCommandWithResponse hs w').unpacker.enabled = false := enabled_clearCache
  let d₂ : Driver M :=
    { d₁.sendCommandWithResponse hs w' with
      codec := c₂
      lastAnsPkt := ((delivered parts).filter fun m => m.cmd.toNat = w').getLast?.or d₁.lastAnsPkt }
  have hstopped : (d₁.sendCommandWithResponse hs w').onRxAll hs during = some (d₂, []) := by
    rw [onRxAll_eq hanswers.onDecodeAll, onMessages_disabled hdisabled]
    rfl
  obtain ⟨c₃, hquiet', hidle₃⟩ := decodes_quiet hjunk' hidle₂
  obtain ⟨c₄, hheader, -, hreceiving⟩ := decodes_header hidle₃ hsmall hflag ansTypeMeasurement
  have hloop := hreceiving hpos
  rw [decide_eq_true hodd] at hloop
  obtain ⟨c₅, hrepeats, hloop'⟩ := hloop.decodes_repeats hlength
  have hshort : ([] : List UInt8).length + rest.length < size := by simpa using hrest
  obtain ⟨c₆, hmore, -⟩ := hloop'.decodes_more hshort
  have hscan := ((hquiet'.append hheader).append hrepeats).append hmore
  rw [← hchunks, List.append_nil, List.nil_append, List.nil_append] at hscan
  have hcleared : Cleared (d₂.enable hs).unpacker := Cleared.enable hrested.disable
  have henabled : (d₂.enable hs).unpacker.enabled = true := enabled_clearCache
  obtain ⟨n, hwait, hnodes⟩ := onMessages_cleared hs henabled hcleared repeats
  refine ⟨d₁, ps₁, d₂, ((d₂.enable hs).onMessages hs (repeats.map (ProtocolMessage.mk ansTypeMeasurement))).1.withCodec c₆,
    hbefore, hstopped, rfl, ?_⟩
  rw [onRxAll_eq (d := d₂.enable hs) hscan.onDecodeAll, hnodes, NormalNode.onDataAll_flatten, hreads.onData hwait]

/-- 何も渡さない、五つの復号器。 -/
def Handlers.silent : Handlers Unit := ⟨fun t => 0x82 ≤ t ∧ t ≤ 0x86, fun _ m _ => (m, []), fun _ m => m⟩

-- 読みかけの応答の後に、命令への応答と、90 度の測定を受け取る。
theorem onRxAll_scan_quarter :
    ∃ d₁ ps₁ d₂ d₃, (Driver.create (fun _ => ()) 4).onRxAll .silent [[0x00], [0xA5]] = some (d₁, ps₁) ∧
      (d₁.sendCommandWithResponse .silent 6).onRxAll .silent [header 3 0 6, [0, 0, 0]] = some (d₂, []) ∧
      d₂.lastAnsPkt = ((delivered [([], ⟨0, 6, [0, 0, 0], by decide, by decide⟩)]).filter fun m => m.cmd.toNat = 6).getLast?.or
        d₁.lastAnsPkt ∧
      (d₂.enable .silent).onRxAll .silent [header 5 1 ansTypeMeasurement ++ [0x3D, 0x01], [0x2D, 0xA0, 0x0F, 0x3D]] =
        some (d₃, (nodes [⟨[], ⟨true, 15, 5760, 4000⟩, .nil⟩]).map .node) :=
  onRxAll_scan .silent (fun _ => ()) 4 6 [[0x00], [0xA5]]
    (fun p hp => by
      obtain rfl := List.mem_singleton.mp hp
      exact ⟨.nil, Or.inl rfl⟩)
    .nil (by decide) .nil (show 0 < 5 by decide) (by decide) (show 1 < 4 by decide) (by decide)
    (show ∀ r ∈ [[0x3D, 0x01, 0x2D, 0xA0, 0x0F]], List.length r = 5 by simp) (show [0x3D].length < 5 by decide) (by decide)
    (show Reads _ [⟨[], ⟨true, 15, 5760, 4000⟩, .nil⟩] [] from
      ⟨by decide, [], ⟨true, 15, 5760, 4000⟩, 0, by decide, .nil, rfl⟩)

end Ranger.Lidar
