import Ranger.Lidar.ProtocolCodec

/-!
# 応答の列の復号

バイトの列は、応答の始まりと読まれないバイトを挟んだ応答の列に一通りに分かれ、渡されるのは、そこに並ぶ応答である。受け取る区切りは
結果を変えない。
-/

namespace Ranger.Lidar

/-- 応答。旗は 2 ビット、大きさは 30 ビットである。 -/
structure Answer where
  flag : ℕ
  cmd : UInt8
  payload : List UInt8
  flag_lt : flag < 4
  small : payload.length < 2 ^ 30

namespace Answer

def bytes (a : Answer) : List UInt8 := header a.payload.length a.flag a.cmd ++ a.payload

/-- 渡される応答。空の応答は渡されない。 -/
def messages (a : Answer) : List ProtocolMessage := if a.payload = [] then [] else [⟨a.cmd, a.payload⟩]

/-- 一度だけ送られる応答。 -/
def Single (a : Answer) : Prop := a.flag % 2 = 0 ∨ a.payload = []

end Answer

/-- 応答と、その前のバイト。 -/
abbrev Part := List UInt8 × Answer

def stream (parts : List Part) : List UInt8 := parts.flatMap fun p => p.1 ++ p.2.bytes

def delivered (parts : List Part) : List ProtocolMessage := parts.flatMap fun p => p.2.messages

def WellFormed (parts : List Part) : Prop := ∀ p ∈ parts, Quiet p.1 ∧ p.2.Single

/-- 区切られたバイトの列を、順に受け取る。 -/
def Codec.onDecodeAll (c : Codec) : List (List UInt8) → Option (Codec × List ProtocolMessage)
  | [] => some (c, [])
  | bs :: rest => do
      let r ← c.onDecodeData bs
      let s ← r.1.onDecodeAll rest
      pure (s.1, r.2 ++ s.2)

/-! ## 区切り -/

section Chunks

variable {c c' : Codec} {ms : List ProtocolMessage}

theorem Codec.Decodes.split {bs bs' : List UInt8} (h : c.Decodes (bs ++ bs') c' ms) :
    ∃ c₁ ms₁ ms₂, c.Decodes bs c₁ ms₁ ∧ c₁.Decodes bs' c' ms₂ ∧ ms = ms₁ ++ ms₂ := by
  induction bs generalizing c ms with
  | nil => exact ⟨c, [], ms, .nil c, h, rfl⟩
  | cons b bs ih =>
      obtain ⟨r, hr, hrest⟩ := Option.bind_eq_some_iff.mp h
      obtain ⟨t, ht, hend⟩ := Option.bind_eq_some_iff.mp hrest
      cases hend
      obtain ⟨c₁, ms₁, ms₂, hfirst, hsecond, heq⟩ := ih ht
      exact ⟨c₁, _, ms₂, hfirst.cons hr, hsecond, by rw [heq, List.append_assoc]⟩

/-- 受け取る区切りは、結果を変えない。 -/
theorem Codec.Decodes.onDecodeAll {chunks : List (List UInt8)} (h : c.Decodes chunks.flatten c' ms) :
    c.onDecodeAll chunks = some (c', ms) := by
  induction chunks generalizing c ms with
  | nil => exact h
  | cons bs chunks ih =>
      obtain ⟨c₁, ms₁, ms₂, hfirst, hsecond, rfl⟩ := h.split
      have hdata : c.onDecodeData bs = some (c₁, ms₁) := hfirst
      simp [Codec.onDecodeAll, hdata, ih hsecond]

end Chunks

/-! ## 応答の列から -/

section Answers

variable {c : Codec} {parts : List Part}

theorem decodes_answer (h : Idle c) {p : Part} (hquiet : Quiet p.1) (hsingle : p.2.Single) :
    ∃ c', c.Decodes (p.1 ++ p.2.bytes) c' p.2.messages ∧ Idle c' := by
  obtain ⟨c₁, hjunk, hidle⟩ := decodes_quiet hquiet h
  obtain ⟨c₂, hheader, hzero, hpos⟩ := decodes_header hidle p.2.small p.2.flag_lt p.2.cmd
  by_cases hempty : p.2.payload = []
  · refine ⟨c₂, ?_, hzero (by rw [hempty]; rfl)⟩
    have hbytes : p.2.bytes = header p.2.payload.length p.2.flag p.2.cmd := by rw [Answer.bytes, hempty, List.append_nil]
    rw [hbytes, Answer.messages, if_pos hempty]
    exact hjunk.append hheader
  · have hlength : 0 < p.2.payload.length := List.length_pos_iff.mpr hempty
    have hall : ([] : List UInt8).length + p.2.payload.length = p.2.payload.length := Nat.zero_add _
    obtain ⟨c₃, hpayload, -, hend⟩ := (hpos hlength).decodes hall
    have hflag : decide (p.2.flag % 2 = 1) = false := by
      have heven := hsingle.resolve_right hempty
      simp [heven]
    refine ⟨c₃, ?_, hend hflag⟩
    rw [Answer.messages, if_neg hempty, Answer.bytes]
    exact hjunk.append (hheader.append hpayload)

theorem decodes_stream (h : Idle c) (hparts : WellFormed parts) :
    ∃ c', c.Decodes (stream parts) c' (delivered parts) ∧ Idle c' := by
  induction parts generalizing c with
  | nil => exact ⟨c, .nil c, h⟩
  | cons p parts ih =>
      obtain ⟨hquiet, hsingle⟩ := hparts p List.mem_cons_self
      obtain ⟨c₁, hfirst, hidle⟩ := decodes_answer h hquiet hsingle
      obtain ⟨c₂, hrest, hend⟩ := ih hidle fun q hq => hparts q (List.mem_cons_of_mem p hq)
      exact ⟨c₂, hfirst.append hrest, hend⟩

theorem Receiving.decodes_repeats {cmd : UInt8} {n : ℕ} {repeats : List (List UInt8)}
    (h : Receiving c true cmd n []) (hrepeats : ∀ r ∈ repeats, r.length = n) :
    ∃ c', c.Decodes repeats.flatten c' (repeats.map (ProtocolMessage.mk cmd)) ∧ Receiving c' true cmd n [] := by
  induction repeats generalizing c with
  | nil => exact ⟨c, .nil c, h⟩
  | cons r repeats ih =>
      have hall : ([] : List UInt8).length + r.length = n := by simpa using hrepeats r List.mem_cons_self
      obtain ⟨c₁, hfirst, hloop, -⟩ := h.decodes hall
      obtain ⟨c₂, hrest, hend⟩ := ih (hloop rfl) fun q hq => hrepeats q (List.mem_cons_of_mem r hq)
      exact ⟨c₂, hfirst.append hrest, hend⟩

theorem Receiving.decodes_more {loop : Bool} {cmd : UInt8} {n : ℕ} {done rest : List UInt8}
    (h : Receiving c loop cmd n done) (hrest : done.length + rest.length < n) :
    ∃ c', c.Decodes rest c' [] ∧ Receiving c' loop cmd n (done ++ rest) := by
  induction rest generalizing c done with
  | nil => exact ⟨c, .nil c, by rwa [List.append_nil]⟩
  | cons b rest ih =>
      rw [List.length_cons] at hrest
      obtain ⟨c₁, hdecode, hnext⟩ := h.next (by omega) b
      obtain ⟨c₂, hmore, hend⟩ := ih hnext (by simp; omega)
      rw [List.append_assoc, List.singleton_append] at hend
      exact ⟨c₂, hmore.silent hdecode, hend⟩

end Answers

/-- どう区切って受け取っても、列に並ぶ応答だけが順に渡される。繰り返される応答の後は、大きさの通りに切り分けた中身が渡される。 -/
theorem onDecodeAll_stream {parts : List Part} {junk : List UInt8} (hparts : WellFormed parts) (hjunk : Quiet junk) :
    (∀ chunks : List (List UInt8), chunks.flatten = stream parts ++ junk →
      ∃ c, Codec.create.onDecodeAll chunks = some (c, delivered parts) ∧ Idle c) ∧
    ∀ (size flag : ℕ) (cmd : UInt8) (repeats : List (List UInt8)) (rest : List UInt8) (chunks : List (List UInt8)),
      0 < size → size < 2 ^ 30 → flag < 4 → flag % 2 = 1 → (∀ r ∈ repeats, r.length = size) → rest.length < size →
      chunks.flatten = stream parts ++ junk ++ header size flag cmd ++ repeats.flatten ++ rest →
      ∃ c, Codec.create.onDecodeAll chunks =
        some (c, delivered parts ++ repeats.map (ProtocolMessage.mk cmd)) ∧ Receiving c true cmd size rest := by
  obtain ⟨c₁, hstream, hidle₁⟩ := decodes_stream idle_create hparts
  obtain ⟨c₂, hquiet, hidle₂⟩ := decodes_quiet hjunk hidle₁
  have hbefore := hstream.append hquiet
  rw [List.append_nil] at hbefore
  refine ⟨fun chunks hchunks => ⟨c₂, ?_, hidle₂⟩, fun size flag cmd repeats rest chunks hpos hsmall hlt hodd hlength hrest hchunks => ?_⟩
  · apply Codec.Decodes.onDecodeAll
    rwa [hchunks]
  · obtain ⟨c₃, hheader, -, hreceiving⟩ := decodes_header hidle₂ hsmall hlt cmd
    have hloop := hreceiving hpos
    rw [decide_eq_true hodd] at hloop
    obtain ⟨c₄, hrepeats, hloop'⟩ := hloop.decodes_repeats hlength
    have hshort : ([] : List UInt8).length + rest.length < size := by simpa using hrest
    obtain ⟨c₅, hmore, hend⟩ := hloop'.decodes_more hshort
    refine ⟨c₅, ?_, hend⟩
    apply Codec.Decodes.onDecodeAll
    have hall := ((hbefore.append hheader).append hrepeats).append hmore
    rw [hchunks]
    simpa using hall

-- 読まれないバイトの後の一つの応答と、二回繰り返された応答。
theorem onDecodeAll_stream_health :
    (∀ chunks : List (List UInt8), chunks.flatten = stream [([0x00, 0xA5, 0xA5], ⟨0, 6, [0, 0, 0], by decide, by decide⟩)] ++ [] →
      ∃ c, Codec.create.onDecodeAll chunks =
        some (c, delivered [([0x00, 0xA5, 0xA5], ⟨0, 6, [0, 0, 0], by decide, by decide⟩)]) ∧ Idle c) ∧
    ∀ (size flag : ℕ) (cmd : UInt8) (repeats : List (List UInt8)) (rest : List UInt8) (chunks : List (List UInt8)),
      0 < size → size < 2 ^ 30 → flag < 4 → flag % 2 = 1 → (∀ r ∈ repeats, r.length = size) → rest.length < size →
      chunks.flatten = stream [([0x00, 0xA5, 0xA5], ⟨0, 6, [0, 0, 0], by decide, by decide⟩)] ++ [] ++
        header size flag cmd ++ repeats.flatten ++ rest →
      ∃ c, Codec.create.onDecodeAll chunks =
        some (c, delivered [([0x00, 0xA5, 0xA5], ⟨0, 6, [0, 0, 0], by decide, by decide⟩)] ++
          repeats.map (ProtocolMessage.mk cmd)) ∧ Receiving c true cmd size rest :=
  onDecodeAll_stream (fun p hp => by
    obtain rfl := List.mem_singleton.mp hp
    exact ⟨.other (by decide) (.sync (by decide) .nil), Or.inl rfl⟩) .nil

/-! ## どの列も分かれる -/

/-- 応答の列と、始まりと読まれないバイトに分かれる。 -/
def Parsed (bs : List UInt8) (ms : List ProtocolMessage) : Prop :=
  ∃ parts junk, WellFormed parts ∧ Quiet junk ∧ bs = stream parts ++ junk ∧ ms = delivered parts

/-- 受け取ったバイトの列と状態。まだ揃わない応答は、応答の始めの部分である。 -/
inductive Trace : List UInt8 → List ProtocolMessage → Codec → Prop
  | idle {bs ms c} : Parsed bs ms → Idle c → Trace bs ms c
  | waitSync2 {bs ms c} : Parsed bs ms → c.status = .waitSync2 → c.len < 2 ^ 32 → Trace (bs ++ [0xA5]) ms c
  | waitSizeFlag {bs ms c} : Parsed bs ms → c.status = .waitSizeFlag → c.len < 2 ^ 32 → c.rxPos < 4 →
      Trace (bs ++ 0xA5 :: 0x5A :: (le32 c.len).take c.rxPos) ms c
  | waitType {bs ms c size flag} : Parsed bs ms → c.status = .waitType → c.rxPos = 0 → c.len = size → size < 2 ^ 30 → flag < 4 →
      c.loopMode = decide (flag % 2 = 1) → (0 < size → ∃ buf, c.data = some buf ∧ size ≤ buf.length) →
      Trace (bs ++ 0xA5 :: 0x5A :: le32 (sizeFlag size flag)) ms c
  | recvPayload {bs ms c size flag cmd repeats done} : Parsed bs ms → flag < 4 →
      Receiving c (decide (flag % 2 = 1)) cmd size done → (flag % 2 = 0 → repeats = []) →
      (∀ r ∈ repeats, r.length = size) →
      Trace (bs ++ header size flag cmd ++ repeats.flatten ++ done) (ms ++ repeats.map (ProtocolMessage.mk cmd)) c

section Trace

variable {c : Codec} {bs : List UInt8} {ms : List ProtocolMessage}

theorem Quiet.append {junk : List UInt8} (h : Quiet junk) {rest : List UInt8} (hrest : Quiet rest) : Quiet (junk ++ rest) := by
  induction h with
  | nil => exact hrest
  | other hne _ ih => exact .other hne ih
  | sync hne _ ih => exact .sync hne ih

theorem Parsed.quiet (h : Parsed bs ms) {junk : List UInt8} (hjunk : Quiet junk) : Parsed (bs ++ junk) ms := by
  obtain ⟨parts, before, hparts, hbefore, rfl, hms⟩ := h
  exact ⟨parts, before ++ junk, hparts, hbefore.append hjunk, List.append_assoc _ _ _, hms⟩

theorem Parsed.answer (h : Parsed bs ms) {a : Answer} (ha : a.Single) : Parsed (bs ++ a.bytes) (ms ++ a.messages) := by
  obtain ⟨parts, junk, hparts, hjunk, rfl, rfl⟩ := h
  refine ⟨parts ++ [(junk, a)], [], fun p hp => ?_, .nil, by simp [stream], by simp [delivered]⟩
  rcases List.mem_append.mp hp with hp | hp
  · exact hparts p hp
  · obtain rfl := List.mem_singleton.mp hp
    exact ⟨hjunk, ha⟩

theorem length_le32 (v : ℕ) : (le32 v).length = 4 := rfl

theorem sizeFlag_split {v : ℕ} : sizeFlag (v % 2 ^ 30) (v / 2 ^ 30) = v := by
  rw [sizeFlag, Nat.mul_comm, Nat.mod_add_div]

theorem Trace.next_waitSizeFlag (h : Parsed bs ms) (hstatus : c.status = .waitSizeFlag) (hlen : c.len < 2 ^ 32)
    (hpos : c.rxPos < 4) (b : UInt8) :
    ∃ c', c.decodeByte b = some (c', none) ∧ Trace (bs ++ 0xA5 :: 0x5A :: (le32 c.len).take c.rxPos ++ [b]) ms c' := by
  have hbytes : (le32 (writeByte c.len c.rxPos b)).take (c.rxPos + 1) = (le32 c.len).take c.rxPos ++ [b] :=
    take_le32_writeByte hpos b
  have hlt := writeByte_lt hlen hpos b
  have hassoc : bs ++ 0xA5 :: 0x5A :: (le32 c.len).take c.rxPos ++ [b] =
      bs ++ 0xA5 :: 0x5A :: (le32 (writeByte c.len c.rxPos b)).take (c.rxPos + 1) := by
    rw [hbytes]
    simp
  rw [hassoc]
  by_cases hlast : c.rxPos + 1 = 4
  · have hsplit : le32 (writeByte c.len c.rxPos b) =
        le32 (sizeFlag (writeByte c.len c.rxPos b % 2 ^ 30) (writeByte c.len c.rxPos b / 2 ^ 30)) := by
      rw [sizeFlag_split]
    rw [hlast, List.take_of_length_le (Nat.le_of_eq (length_le32 _)), hsplit]
    obtain ⟨hroom, hbuf⟩ := length_changeBufSize c.data (writeByte c.len c.rxPos b % 2 ^ 30)
    refine ⟨_, by simp only [Codec.decodeByte, hstatus, if_pos hlast]; rfl, ?_⟩
    refine .waitType h rfl rfl rfl (Nat.mod_lt _ (by decide)) (by omega) rfl fun hsize => ?_
    obtain ⟨buf, hdata⟩ := hbuf hsize
    rw [hdata] at hroom
    exact ⟨buf, hdata, hroom⟩
  · refine ⟨{ c with len := writeByte c.len c.rxPos b, rxPos := c.rxPos + 1 }, ?_,
      Trace.waitSizeFlag (c := { c with len := writeByte c.len c.rxPos b, rxPos := c.rxPos + 1 }) h hstatus hlt
        (by show c.rxPos + 1 < 4; omega)⟩
    simp [Codec.decodeByte, hstatus, hlast]

theorem Trace.next_waitType (h : Parsed bs ms) {size flag : ℕ} (hstatus : c.status = .waitType) (hpos : c.rxPos = 0) (hlen : c.len = size)
    (hsmall : size < 2 ^ 30) (hflag : flag < 4) (hloop : c.loopMode = decide (flag % 2 = 1))
    (hdata : 0 < size → ∃ buf, c.data = some buf ∧ size ≤ buf.length) (b : UInt8) :
    ∃ c', c.decodeByte b = some (c', none) ∧ Trace (bs ++ 0xA5 :: 0x5A :: le32 (sizeFlag size flag) ++ [b]) ms c' := by
  have hheader : bs ++ 0xA5 :: 0x5A :: le32 (sizeFlag size flag) ++ [b] = bs ++ header size flag b := by
    simp [header]
  rw [hheader]
  by_cases hzero : size = 0
  · subst hzero
    refine ⟨{ c with cmd := b, status := .waitSync1, loopMode := false }, ?_, .idle ?_ ⟨rfl, ?_⟩⟩
    · simp [Codec.decodeByte, hstatus, hlen]
    · have hparsed := h.answer (a := ⟨flag, b, [], hflag, by decide⟩) (Or.inr rfl)
      simpa [Answer.bytes, Answer.messages] using hparsed
    · show c.len < 2 ^ 32
      rw [hlen]
      decide
  · refine ⟨{ c with cmd := b, status := .recvPayload }, ?_, ?_⟩
    · simp [Codec.decodeByte, hstatus, hlen, hzero]
    · obtain ⟨buf, hbuf, hroom⟩ := hdata (Nat.pos_of_ne_zero hzero)
      have hreceiving : Receiving { c with cmd := b, status := .recvPayload } (decide (flag % 2 = 1)) b size [] :=
        ⟨rfl, hloop, hpos, hlen, rfl, hsmall, Nat.pos_of_ne_zero hzero, buf, hbuf, hroom, rfl⟩
      have hnone : ∀ r ∈ ([] : List (List UInt8)), r.length = size := by simp
      have htrace := Trace.recvPayload h hflag hreceiving (fun _ => rfl) hnone
      simpa using htrace

theorem Trace.next_recvPayload (h : Parsed bs ms) {size flag : ℕ} {cmd : UInt8} {repeats : List (List UInt8)}
    {done : List UInt8} (hflag : flag < 4) (hreceiving : Receiving c (decide (flag % 2 = 1)) cmd size done)
    (hrepeats : flag % 2 = 0 → repeats = []) (hlength : ∀ r ∈ repeats, r.length = size) (b : UInt8) :
    ∃ c' m, c.decodeByte b = some (c', m) ∧
      Trace (bs ++ header size flag cmd ++ repeats.flatten ++ done ++ [b])
        (ms ++ repeats.map (ProtocolMessage.mk cmd) ++ m.toList) c' := by
  have hsmall := hreceiving.small
  by_cases hlast : done.length + 1 = size
  · obtain ⟨c', hdecode, hloop, hidle⟩ := hreceiving.last hlast b
    refine ⟨c', _, hdecode, ?_⟩
    by_cases hodd : flag % 2 = 1
    · -- 繰り返される応答は、中身を受け取る状態に戻る。
      have hloop' := hloop (decide_eq_true hodd)
      have hlength' : ∀ r ∈ repeats ++ [done ++ [b]], r.length = size := by
        intro r hr
        rcases List.mem_append.mp hr with hr | hr
        · exact hlength r hr
        · rw [List.mem_singleton.mp hr, List.length_append, List.length_singleton, hlast]
      have htrace := Trace.recvPayload h hflag hloop' (fun heven => by omega) hlength'
      simpa using htrace
    · have heven : flag % 2 = 0 := by omega
      have hanswer := h.answer (a := ⟨flag, cmd, done ++ [b], hflag, by simpa [hlast] using hsmall⟩) (Or.inl heven)
      rw [hrepeats heven]
      refine .idle ?_ (hidle (decide_eq_false hodd))
      simpa [Answer.bytes, Answer.messages, hlast] using hanswer
  · obtain ⟨c', hdecode, hnext⟩ := hreceiving.next (by have hmore := hreceiving.more; omega) b
    have htrace := Trace.recvPayload h hflag hnext hrepeats hlength
    exact ⟨c', none, hdecode, by simpa using htrace⟩

theorem Trace.next (h : Trace bs ms c) (b : UInt8) :
    ∃ c' m, c.decodeByte b = some (c', m) ∧ Trace (bs ++ [b]) (ms ++ m.toList) c' := by
  have hsilent {c : Codec} {bs ms b} (h : ∃ c', c.decodeByte b = some (c', none) ∧ Trace (bs ++ [b]) ms c') :
      ∃ c' m, c.decodeByte b = some (c', m) ∧ Trace (bs ++ [b]) (ms ++ m.toList) c' := by
    obtain ⟨c', hdecode, htrace⟩ := h
    exact ⟨c', none, hdecode, by simpa using htrace⟩
  cases h with
  | idle hparsed hidle =>
      apply hsilent
      by_cases hb : b = 0xA5
      · subst hb
        exact ⟨{ c with status := .waitSync2, loopMode := false }, by simp [Codec.decodeByte, hidle.status],
          .waitSync2 hparsed rfl hidle.len⟩
      · exact ⟨c, by simp [Codec.decodeByte, hidle.status, hb], .idle (hparsed.quiet (.other hb .nil)) hidle⟩
  | waitSync2 hparsed hstatus hlen =>
      apply hsilent
      by_cases hb : b = 0x5A
      · subst hb
        refine ⟨{ c with status := .waitSizeFlag, loopMode := false, rxPos := 0 }, by simp [Codec.decodeByte, hstatus], ?_⟩
        have htrace : Trace _ ms { c with status := .waitSizeFlag, loopMode := false, rxPos := 0 } :=
          .waitSizeFlag hparsed rfl hlen (by decide : 0 < 4)
        simpa using htrace
      · refine ⟨{ c with status := .waitSync1, loopMode := false }, by simp [Codec.decodeByte, hstatus, hb], ?_⟩
        exact .idle (by simpa using hparsed.quiet (.sync hb .nil)) ⟨rfl, hlen⟩
  | waitSizeFlag hparsed hstatus hlen hpos => exact hsilent (next_waitSizeFlag hparsed hstatus hlen hpos b)
  | waitType hparsed hstatus hpos hlen hsmall hflag hloop hdata =>
      exact hsilent (next_waitType hparsed hstatus hpos hlen hsmall hflag hloop hdata b)
  | recvPayload hparsed hflag hreceiving hrepeats hlength =>
      exact next_recvPayload hparsed hflag hreceiving hrepeats hlength b

theorem Trace.decodes (h : Trace bs ms c) (rest : List UInt8) :
    ∃ c' ms', c.Decodes rest c' ms' ∧ Trace (bs ++ rest) (ms ++ ms') c' := by
  induction rest generalizing bs ms c with
  | nil => exact ⟨c, [], .nil c, by simpa using h⟩
  | cons b rest ih =>
      obtain ⟨c₁, m, hdecode, hnext⟩ := h.next b
      obtain ⟨c₂, ms', hrest, hend⟩ := ih hnext
      exact ⟨c₂, _, hrest.cons hdecode, by simpa using hend⟩

/-- 応答の始めの部分。 -/
def Incomplete (rest : List UInt8) : Prop := ∃ (a : Answer) (more : List UInt8), more ≠ [] ∧ a.bytes = rest ++ more

/-- 大きさと旗だけが決まった応答。 -/
def blank (size flag : ℕ) (hsize : size < 2 ^ 30) (hflag : flag < 4) : Answer :=
  ⟨flag, 0, List.replicate size 0, hflag, by simpa using hsize⟩

theorem bytes_blank {size flag : ℕ} (hsize : size < 2 ^ 30) (hflag : flag < 4) :
    (blank size flag hsize hflag).bytes =
      0xA5 :: 0x5A :: (le32 (sizeFlag size flag) ++ 0 :: List.replicate size 0) := by
  simp [blank, Answer.bytes, header]

/-- 受け取ったバイトの列は、渡した応答と、まだ揃わない応答の始めの部分に分かれる。 -/
theorem Trace.parse (h : Trace bs ms c) :
    (∃ before rest, Parsed before ms ∧ bs = before ++ rest ∧ Incomplete rest) ∨
      ∃ before ms' size flag cmd, ∃ repeats : List (List UInt8), ∃ rest : List UInt8,
        Parsed before ms' ∧ flag < 4 ∧ flag % 2 = 1 ∧ size < 2 ^ 30 ∧ rest.length < size ∧
        (∀ r ∈ repeats, r.length = size) ∧ bs = before ++ header size flag cmd ++ repeats.flatten ++ rest ∧
        ms = ms' ++ repeats.map (ProtocolMessage.mk cmd) := by
  cases h with
  | idle hparsed hidle =>
      exact Or.inl ⟨bs, [], hparsed, (List.append_nil bs).symm, blank 0 0 (by decide) (by decide), _,
        List.cons_ne_nil _ _, bytes_blank (by decide) (by decide)⟩
  | waitSync2 hparsed hstatus hlen =>
      exact Or.inl ⟨_, [0xA5], hparsed, rfl, blank 0 0 (by decide) (by decide), _, List.cons_ne_nil _ _,
        bytes_blank (by decide) (by decide)⟩
  | waitSizeFlag hparsed hstatus hlen hpos =>
      refine Or.inl ⟨_, _, hparsed, rfl, blank (c.len % 2 ^ 30) (c.len / 2 ^ 30) (by omega) (by omega),
        (le32 c.len).drop c.rxPos ++ 0 :: List.replicate (c.len % 2 ^ 30) 0, by simp, ?_⟩
      rw [bytes_blank, sizeFlag_split, List.cons_append, List.cons_append, ← List.append_assoc, List.take_append_drop]
  | @waitType _ _ _ size flag hparsed hstatus hpos hlen hsmall hflag hloop hdata =>
      exact Or.inl ⟨_, _, hparsed, rfl, blank size flag hsmall hflag, 0 :: List.replicate size 0, List.cons_ne_nil _ _,
        bytes_blank hsmall hflag⟩
  | @recvPayload before ms' _ size flag cmd repeats done hparsed hflag hreceiving hrepeats hlength =>
      have hmore := hreceiving.more
      by_cases hodd : flag % 2 = 1
      · exact Or.inr ⟨before, ms', size, flag, cmd, repeats, done, hparsed, hflag, hodd, hreceiving.small, hmore, hlength,
          rfl, rfl⟩
      · have hnone := hrepeats (by omega)
        subst hnone
        have hsize : (done ++ List.replicate (size - done.length) (0 : UInt8)).length = size := by
          simp
          omega
        refine Or.inl ⟨before, header size flag cmd ++ done, by simpa using hparsed, by simp,
          ⟨flag, cmd, done ++ List.replicate (size - done.length) 0, hflag, hsize ▸ hreceiving.small⟩,
          List.replicate (size - done.length) 0, ?_, ?_⟩
        · intro hempty
          have hzero := congrArg List.length hempty
          simp at hzero
          omega
        · simp only [Answer.bytes]
          rw [hsize, List.append_assoc]

theorem exists_trace (chunks : List (List UInt8)) :
    ∃ c ms, Codec.create.onDecodeAll chunks = some (c, ms) ∧ Trace chunks.flatten ms c := by
  have hstart : Trace [] [] Codec.create :=
    .idle ⟨[], [], fun _ hp => absurd hp List.not_mem_nil, .nil, rfl, rfl⟩ idle_create
  obtain ⟨c, ms, hdecodes, htrace⟩ := hstart.decodes chunks.flatten
  rw [List.nil_append, List.nil_append] at htrace
  exact ⟨c, ms, hdecodes.onDecodeAll, htrace⟩

theorem Trace.len_lt (h : Trace bs ms c) : c.len < 2 ^ 32 := by
  cases h with
  | idle _ hidle => exact hidle.len
  | waitSync2 _ _ hlen => exact hlen
  | waitSizeFlag _ _ hlen _ => exact hlen
  | waitType _ _ _ hlen hsmall _ _ _ => omega
  | recvPayload _ _ hreceiving _ _ =>
      have hlen := hreceiving.len
      have hsmall := hreceiving.small
      omega

end Trace

/-- どのバイトの列も、どう区切って受け取っても、配列の外に触れずに読まれる。列は、渡した応答の列と、まだ揃わない応答の始めの部分に
分かれるか、繰り返される応答の始まりの後に、大きさの通りに切り分けた中身が並ぶ。 -/
theorem onDecodeAll_parse (chunks : List (List UInt8)) :
    ∃ c ms, Codec.create.onDecodeAll chunks = some (c, ms) ∧
      ((∃ before rest, Parsed before ms ∧ chunks.flatten = before ++ rest ∧ Incomplete rest) ∨
        ∃ before ms' size flag cmd, ∃ repeats : List (List UInt8), ∃ rest : List UInt8,
          Parsed before ms' ∧ flag < 4 ∧ flag % 2 = 1 ∧ size < 2 ^ 30 ∧ rest.length < size ∧
          (∀ r ∈ repeats, r.length = size) ∧ chunks.flatten = before ++ header size flag cmd ++ repeats.flatten ++ rest ∧
          ms = ms' ++ repeats.map (ProtocolMessage.mk cmd)) := by
  obtain ⟨c, ms, hdecodes, htrace⟩ := exists_trace chunks
  exact ⟨c, ms, hdecodes, htrace.parse⟩

end Ranger.Lidar
