import Ranger.Serial.RingBuffer

/-!
# シリアルポートへの送信

`async_serial.cpp` の `SendBytes`、`WriteToPort` と、`async_write_some` の完了処理。`SendBytes` はどのスレッドからも呼ばれ、
`WriteToPort` と完了処理は入出力のスレッドで一つずつ動く。`tx_mutex_` のもとの区間を一つの遷移とし、どの順の実行でも
成り立つ性質を示す。
-/

namespace Ranger.Serial
open Ranger.Lib

/-! ## 送信の状態 -/

/-- `rxtx_buffer_size`。 -/
def rxtxBufferSize : BufferSize where
  n := 1024 * 8
  pow := ⟨13, rfl⟩
  le := by decide

/-- 送信に使うメンバと、入出力の文脈に残る仕事。`posted` は `post` された `WriteToPort(true)` の数、`writes` は完了して
いない `async_write_some` に渡した長さ、`port` はポートに渡った列、`accepted` は `SendBytes` が受け付けた列である。 -/
structure AsyncSerial where
  txRbuf : RingBuffer UInt8 rxtxBufferSize
  txBuf : List UInt8
  txInProgress : Bool
  opened : Bool
  posted : ℕ
  writes : List ℕ
  port : List UInt8
  accepted : List UInt8
  terminated : Bool

namespace AsyncSerial

/-- 開いた直後の状態。二つのバッファは初期化されない。 -/
def start (buffer txBuf : Fin rxtxBufferSize.n → UInt8) : AsyncSerial where
  txRbuf := RingBuffer.new buffer
  txBuf := List.ofFn txBuf
  txInProgress := false
  opened := true
  posted := 0
  writes := []
  port := []
  accepted := []
  terminated := false

def writeToPort (s : AsyncSerial) (checkIfBusy : Bool) : AsyncSerial :=
  if checkIfBusy && s.txInProgress then s
  else if s.txRbuf.isEmpty then s
  else
    let (len, txBuf, txRbuf) := s.txRbuf.read s.txBuf s.txRbuf.getOccupiedSize.toNat
    { s with
      txInProgress := true
      txBuf := txBuf
      txRbuf := txRbuf
      writes := s.writes ++ [len] }

/-- `asserts` は `assert` の有効なビルドかを表す。空きが足りなければ例外を投げ、何も変えない。 -/
def sendBytes (asserts : Bool) (s : AsyncSerial) (bytes : List UInt8) : AsyncSerial :=
  if !s.opened then s
  else if asserts && !decide (bytes.length < rxtxBufferSize.n) then { s with terminated := true }
  else if s.txRbuf.getFreeSize.toNat < bytes.length then s
  else
    { s with
      txRbuf := (s.txRbuf.write bytes bytes.length).2
      posted := s.posted + 1
      accepted := s.accepted ++ bytes }

/-- 完了処理。`bytes_transferred` は使われない。 -/
def onWritten (s : AsyncSerial) : AsyncSerial :=
  if s.txRbuf.isEmpty then { s with txInProgress := false } else s.writeToPort false

inductive Event where
  | sendBytes (bytes : List UInt8)
  | writeToPort
  /-- 書き込みの完了。渡したバッファの先頭 `transferred` バイトがポートに渡る。 -/
  | written (transferred : ℕ)
  /-- 書き込みの失敗。`Close` は自分のスレッドの終了を待ち、例外で終わる。 -/
  | failed

def step (asserts : Bool) (s : AsyncSerial) (e : Event) : Option AsyncSerial :=
  if s.terminated then none
  else
    match e with
    | .sendBytes bytes => some (s.sendBytes asserts bytes)
    | .writeToPort =>
        if s.posted = 0 then none else some (writeToPort { s with posted := s.posted - 1 } true)
    | .written transferred =>
        match s.writes with
        | [] => none
        | len :: rest =>
            if 0 < transferred ∧ transferred ≤ len then
              some (onWritten { s with writes := rest, port := s.port ++ s.txBuf.take transferred })
            else none
    | .failed => if s.writes = [] then none else some { s with terminated := true }

/-! ## 一つの遷移 -/

/-- 受け付けられ、ポートに渡されていない列。送信中の列に環状バッファの中身が続く。 -/
def remaining (s : AsyncSerial) : List UInt8 := s.txBuf.take s.writes.sum ++ s.txRbuf.contents

/-- 送信中の書き込みは高々一つで、`tx_in_progress_` はその有無を表す。 -/
structure Tidy (s : AsyncSerial) : Prop where
  ring : s.txRbuf.contents.length ≤ rxtxBufferSize.n
  buf : s.txBuf.length = rxtxBufferSize.n
  writes : (s.writes = [] ∧ s.txInProgress = false) ∨
    ∃ len, s.writes = [len] ∧ len ≤ rxtxBufferSize.n ∧ s.txInProgress = true

theorem tidy_start (buffer txBuf : Fin rxtxBufferSize.n → UInt8) : (start buffer txBuf).Tidy := by
  have hbuf : (start buffer txBuf).txBuf.length = rxtxBufferSize.n := by
    simp only [start, List.length_ofFn]
  refine ⟨?_, hbuf, Or.inl ⟨rfl, rfl⟩⟩
  rw [start, RingBuffer.contents_new]
  exact Nat.zero_le _

/-- 送信中の書き込みがないとき、`WriteToPort` は中身の全体を送信に移す。 -/
theorem writeToPort_idle {s : AsyncSerial} (check : Bool) (hring : s.txRbuf.contents.length ≤ rxtxBufferSize.n)
    (hbuf : s.txBuf.length = rxtxBufferSize.n) (hwrites : s.writes = [])
    (hbusy : (check && s.txInProgress) = false) (hne : s.txRbuf.contents ≠ []) :
    (s.writeToPort check).Tidy ∧ (s.writeToPort check).remaining = s.remaining ∧
      (s.writeToPort check).port = s.port ∧ (s.writeToPort check).accepted = s.accepted := by
  have hempty : s.txRbuf.isEmpty = false := by
    rw [← Bool.not_eq_true, RingBuffer.isEmpty_iff]
    exact hne
  obtain ⟨hlen, hdata, hrest⟩ := RingBuffer.readLoop_spec s.txRbuf.contents.length 0 s.txBuf s.txRbuf
    (by omega)
  simp only [Nat.zero_add, min_self, List.take_zero, List.nil_append, List.take_length,
    List.drop_length] at hlen hdata hrest
  have hread : s.txRbuf.read s.txBuf s.txRbuf.getOccupiedSize.toNat =
      RingBuffer.readLoop s.txRbuf.contents.length 0 s.txBuf s.txRbuf := by
    rw [RingBuffer.read, RingBuffer.length_contents]
  simp only [writeToPort, hbusy, hempty, Bool.false_eq_true, if_false, hread]
  refine ⟨⟨?_, ?_, Or.inr ⟨s.txRbuf.contents.length, ?_, hring, rfl⟩⟩, ?_, trivial, trivial⟩
  · simp [hrest]
  · simp only [hdata, List.length_append, List.length_drop]
    omega
  · rw [hwrites, hlen, List.nil_append]
  · simp [remaining, hwrites, hlen, hdata, hrest]

/-- 遷移が、ポートに渡った列、残りの列、受け付けた列に及ぼすこと。 -/
inductive Effect (s : AsyncSerial) (t : AsyncSerial) : Event → Prop where
  | accept (bytes : List UInt8) (hport : t.port = s.port) (hremaining : t.remaining = s.remaining ++ bytes)
      (haccepted : t.accepted = s.accepted ++ bytes) : Effect s t (.sendBytes bytes)
  | keep {e : Event} (he : ∀ n, e ≠ .written n) (hport : t.port = s.port) (hremaining : t.remaining = s.remaining)
      (haccepted : t.accepted = s.accepted) : Effect s t e
  | hand (n len : ℕ) (hwrites : s.writes.head? = some len) (hpos : 0 < n) (hle : n ≤ len)
      (hlen : len ≤ s.remaining.length) (hport : t.port = s.port ++ s.remaining.take n)
      (hremaining : t.remaining = s.remaining.drop len) (haccepted : t.accepted = s.accepted) :
      Effect s t (.written n)

theorem sendBytes_effect (asserts : Bool) {s : AsyncSerial} (h : s.Tidy) (bytes : List UInt8) :
    (s.sendBytes asserts bytes).Tidy ∧ Effect s (s.sendBytes asserts bytes) (.sendBytes bytes) := by
  have hkeep : ∀ n, Event.sendBytes bytes ≠ .written n := by simp
  unfold sendBytes
  split
  · exact ⟨h, .keep hkeep rfl rfl rfl⟩
  · split
    · exact ⟨⟨h.ring, h.buf, h.writes⟩, .keep hkeep rfl rfl rfl⟩
    · split
      · exact ⟨h, .keep hkeep rfl rfl rfl⟩
      · rename_i hfree
        obtain ⟨-, hcontents⟩ := RingBuffer.writeLoop_spec (bytes.take bytes.length) 0 s.txRbuf h.ring
        have hroom : bytes.length ≤ rxtxBufferSize.n - s.txRbuf.contents.length := by
          rw [RingBuffer.toNat_getFreeSize h.ring] at hfree
          omega
        rw [List.take_length, List.take_of_length_le hroom] at hcontents
        refine ⟨⟨?_, h.buf, h.writes⟩, .accept bytes rfl ?_ rfl⟩
        · have := h.ring
          simp only [RingBuffer.write, List.take_length, hcontents, List.length_append]
          omega
        · simp only [remaining, RingBuffer.write, List.take_length, hcontents, List.append_assoc]

theorem writeToPort_effect {s : AsyncSerial} (h : s.Tidy) :
    (writeToPort { s with posted := s.posted - 1 } true).Tidy ∧
      Effect s (writeToPort { s with posted := s.posted - 1 } true) .writeToPort := by
  have hkeep : ∀ n, Event.writeToPort ≠ .written n := by simp
  rcases h.writes with ⟨hwrites, hprogress⟩ | ⟨len, hwrites, hle, hprogress⟩
  · by_cases hne : s.txRbuf.contents = []
    · rw [writeToPort, if_neg (by simp [hprogress]), if_pos (s.txRbuf.isEmpty_iff.mpr hne)]
      exact ⟨⟨h.ring, h.buf, h.writes⟩, .keep hkeep rfl rfl rfl⟩
    · obtain ⟨htidy, hremaining, hport, haccepted⟩ :=
        writeToPort_idle (s := { s with posted := s.posted - 1 }) true h.ring h.buf hwrites
          (by simp [hprogress]) hne
      exact ⟨htidy, .keep hkeep hport hremaining haccepted⟩
  · rw [writeToPort, if_pos (by simp [hprogress])]
    exact ⟨⟨h.ring, h.buf, h.writes⟩, .keep hkeep rfl rfl rfl⟩

theorem onWritten_effect {s : AsyncSerial} (h : s.Tidy) {n len : ℕ} {rest : List ℕ}
    (hwrites : s.writes = len :: rest) (hpos : 0 < n) (hn : n ≤ len) :
    (onWritten { s with writes := rest, port := s.port ++ s.txBuf.take n }).Tidy ∧
      Effect s (onWritten { s with writes := rest, port := s.port ++ s.txBuf.take n }) (.written n) := by
  obtain ⟨hlen, rfl, hprogress⟩ : len ≤ rxtxBufferSize.n ∧ rest = [] ∧ s.txInProgress = true := by
    rcases h.writes with ⟨hnil, -⟩ | ⟨m, hone, hle, hprogress⟩
    · rw [hwrites] at hnil
      cases hnil
    · rw [hwrites] at hone
      cases hone
      exact ⟨hle, rfl, hprogress⟩
  have hbuf := h.buf
  have hremaining : s.remaining = s.txBuf.take len ++ s.txRbuf.contents := by
    simp [remaining, hwrites]
  have hsplit : (s.txBuf.take len).length = len := List.length_take_of_le (by omega)
  have hhead : s.writes.head? = some len := by rw [hwrites, List.head?_cons]
  have hsize : len ≤ s.remaining.length := by
    rw [hremaining, List.length_append, hsplit]
    omega
  have htake : s.remaining.take n = s.txBuf.take n := by
    rw [hremaining, List.take_append_of_le_length (by omega), List.take_take, min_eq_left hn]
  have hdrop : s.remaining.drop len = s.txRbuf.contents := by
    rw [hremaining, List.drop_append_of_le_length (by omega), List.drop_of_length_le (by omega),
      List.nil_append]
  by_cases hne : s.txRbuf.contents = []
  · rw [onWritten, if_pos (s.txRbuf.isEmpty_iff.mpr hne)]
    refine ⟨⟨h.ring, h.buf, Or.inl ⟨rfl, rfl⟩⟩, .hand n len hhead hpos hn hsize ?_ ?_ rfl⟩
    · rw [htake]
    · rw [hdrop]
      simp [remaining]
  · obtain ⟨htidy, hkept, hport, haccepted⟩ :=
      writeToPort_idle (s := { s with writes := [], port := s.port ++ s.txBuf.take n }) false
        h.ring h.buf rfl rfl hne
    rw [onWritten, if_neg (by rw [RingBuffer.isEmpty_iff]; exact hne)]
    refine ⟨htidy, .hand n len hhead hpos hn hsize ?_ ?_ haccepted⟩
    · rw [hport, htake]
    · rw [hkept, hdrop]
      simp [remaining]

theorem step_effect {asserts : Bool} {s t : AsyncSerial} {e : Event} (h : s.Tidy)
    (hstep : s.step asserts e = some t) : t.Tidy ∧ Effect s t e := by
  unfold step at hstep
  split at hstep
  · cases hstep
  · cases e with
    | sendBytes bytes =>
        cases hstep
        exact sendBytes_effect asserts h bytes
    | writeToPort =>
        simp only at hstep
        split at hstep
        · cases hstep
        · cases hstep
          exact writeToPort_effect h
    | written n =>
        simp only at hstep
        split at hstep
        · cases hstep
        · rename_i len rest hwrites
          split at hstep
          · rename_i hn
            cases hstep
            exact onWritten_effect h hwrites hn.1 hn.2
          · cases hstep
    | failed =>
        simp only at hstep
        split at hstep
        · cases hstep
        · cases hstep
          exact ⟨⟨h.ring, h.buf, h.writes⟩, .keep (by simp) rfl rfl rfl⟩

/-! ## 実行の全体 -/

/-- 受け付けた列は、ポートに渡った列と残りの列に分かれる。 -/
def Exact (s : AsyncSerial) : Prop := s.accepted = s.port ++ s.remaining

/-- 受け付けたバイトの一部が、どこにも残っていない。 -/
def Lossy (s : AsyncSerial) : Prop := s.port.length + s.remaining.length < s.accepted.length

/-- 送信中の書き込みがなく、環状バッファが空である。 -/
def Quiescent (s : AsyncSerial) : Prop := s.txInProgress = false ∧ s.txRbuf.isEmpty = true

/-- 書き込みの完了は、渡したバッファの全体を送ったときにだけ起こる。 -/
def FullTransfer (s : AsyncSerial) : Event → AsyncSerial → Prop
  | .written n, _ => s.writes.head? = some n
  | .sendBytes _, _ | .writeToPort, _ | .failed, _ => True

instance (s : AsyncSerial) (e : Event) (t : AsyncSerial) : Decidable (FullTransfer s e t) :=
  match e with
  | .written n => inferInstanceAs (Decidable (s.writes.head? = some n))
  | .sendBytes _ | .writeToPort | .failed => isTrue trivial

theorem exact_step {s t : AsyncSerial} {e : Event} (h : s.Exact) (heffect : Effect s t e)
    (hfull : FullTransfer s e t) : t.Exact := by
  cases heffect with
  | accept bytes hport hremaining haccepted =>
      rw [Exact, hport, hremaining, haccepted, h, List.append_assoc]
  | keep _ hport hremaining haccepted => rw [Exact, hport, hremaining, haccepted, h]
  | hand n len hwrites _ _ _ hport hremaining haccepted =>
      have hn : len = n := Option.some.inj (hwrites.symm.trans hfull)
      rw [Exact, hport, hremaining, haccepted, h, hn, List.append_assoc, List.take_append_drop]

theorem lossy_of_exact {s t : AsyncSerial} {e : Event} (h : s.Exact) (heffect : Effect s t e)
    (hshort : ¬ FullTransfer s e t) : t.Lossy := by
  cases heffect with
  | accept bytes _ _ _ => exact absurd trivial hshort
  | keep he _ _ _ =>
      cases e with
      | written n => exact absurd rfl (he n)
      | sendBytes _ | writeToPort | failed => exact absurd trivial hshort
  | hand n len hwrites _ hle hlen hport hremaining haccepted =>
      have hne : n ≠ len := by
        intro heq
        apply hshort
        rw [FullTransfer, hwrites, heq]
      rw [Lossy, hport, hremaining, haccepted, h]
      simp only [List.length_append, List.length_take, List.length_drop]
      omega

theorem lossy_step {s t : AsyncSerial} {e : Event} (h : s.Lossy) (heffect : Effect s t e) : t.Lossy := by
  unfold Lossy at h ⊢
  cases heffect with
  | accept bytes hport hremaining haccepted =>
      rw [hport, hremaining, haccepted, List.length_append, List.length_append]
      omega
  | keep _ hport hremaining haccepted => rwa [hport, hremaining, haccepted]
  | hand n len _ _ hle hlen hport hremaining haccepted =>
      rw [hport, hremaining, haccepted, List.length_append, List.length_take, List.length_drop]
      omega

theorem lossy_runs {asserts : Bool} {es : List Event} {s t : AsyncSerial} (htidy : s.Tidy) (h : s.Lossy)
    (hrun : runs (step asserts) s es = some t) : t.Lossy ∧ t.Tidy := by
  induction es generalizing s with
  | nil =>
      cases hrun
      exact ⟨h, htidy⟩
  | cons e es ih =>
      obtain ⟨u, hstep, hrest⟩ := runs_cons_some hrun
      obtain ⟨hu, heffect⟩ := step_effect htidy hstep
      exact ih hu (lossy_step h heffect) hrest

/-- 全ての完了が全体を送った実行は何も失わず、そうでない実行は失ったままになる。 -/
theorem exact_runs {asserts : Bool} {es : List Event} {s t : AsyncSerial} (htidy : s.Tidy) (h : s.Exact)
    (hrun : runs (step asserts) s es = some t) :
    t.Tidy ∧ ((Always (step asserts) FullTransfer s es ∧ t.Exact) ∨
      (¬ Always (step asserts) FullTransfer s es ∧ t.Lossy)) := by
  induction es generalizing s with
  | nil =>
      cases hrun
      exact ⟨htidy, Or.inl ⟨Always.nil _, h⟩⟩
  | cons e es ih =>
      obtain ⟨u, hstep, hrest⟩ := runs_cons_some hrun
      obtain ⟨hu, heffect⟩ := step_effect htidy hstep
      by_cases hfull : FullTransfer s e u
      · obtain ⟨ht, hcase⟩ := ih hu (exact_step h heffect hfull) hrest
        have hiff : Always (step asserts) FullTransfer s (e :: es) ↔
            Always (step asserts) FullTransfer u es := by
          constructor
          · intro halways
            exact (halways u hstep).2
          · intro halways v hv
            cases hstep.symm.trans hv
            exact ⟨hfull, halways⟩
        rw [hiff]
        exact ⟨ht, hcase⟩
      · obtain ⟨hlossy, ht⟩ := lossy_runs hu (lossy_of_exact h heffect hfull) hrest
        exact ⟨ht, Or.inr ⟨fun halways => hfull (halways u hstep).1, hlossy⟩⟩

theorem Quiescent.remaining_eq {s : AsyncSerial} (h : s.Quiescent) (htidy : s.Tidy) : s.remaining = [] := by
  obtain ⟨hprogress, hempty⟩ := h
  have hcontents := s.txRbuf.isEmpty_iff.mp hempty
  rcases htidy.writes with ⟨hwrites, -⟩ | ⟨len, -, -, hbusy⟩
  · simp [remaining, hwrites, hcontents]
  · rw [hprogress] at hbusy
    cases hbusy

/-- 完了が全体を送るあいだ、ポートに渡った列は受け付けた列の先頭部分である。書き込みがなく環状バッファが空のとき、二つが
一致することは、それまでの完了が全て全体を送ったことと同値である。 -/
theorem port_eq_accepted_iff (asserts : Bool) (buffer txBuf : Fin rxtxBufferSize.n → UInt8) (es : List Event)
    (t : AsyncSerial) (hrun : runs (step asserts) (start buffer txBuf) es = some t) :
    (Always (step asserts) FullTransfer (start buffer txBuf) es → t.port <+: t.accepted) ∧
    (t.Quiescent →
      (t.port = t.accepted ↔ Always (step asserts) FullTransfer (start buffer txBuf) es)) := by
  have hstart : (start buffer txBuf).Exact := by
    simp [Exact, remaining, start]
  obtain ⟨htidy, ⟨halways, hexact⟩ | ⟨hnot, hlossy⟩⟩ := exact_runs (tidy_start buffer txBuf) hstart hrun
  · refine ⟨fun _ => ⟨t.remaining, hexact.symm⟩, fun hquiet => ⟨fun _ => halways, fun _ => ?_⟩⟩
    rw [hexact, hquiet.remaining_eq htidy, List.append_nil]
  · refine ⟨fun halways => absurd halways hnot, fun hquiet => ⟨fun heq => ?_, fun halways => absurd halways hnot⟩⟩
    rw [Lossy, heq] at hlossy
    omega

-- 二バイトを送り、一度に全体が渡る。
theorem port_eq_accepted_iff_two_bytes :
    ∃ t, runs (step true) (start (fun _ => 0) (fun _ => 0))
        [.sendBytes [0x55, 0x01], .writeToPort, .written 2] = some t ∧
      t.Quiescent ∧ t.port <+: t.accepted ∧ t.port = t.accepted := by
  have hsome : (runs (step true) (start (fun _ => 0) (fun _ => 0))
      [.sendBytes [0x55, 0x01], .writeToPort, .written 2]).any
        (fun t => !t.txInProgress && t.txRbuf.isEmpty) = true := by
    decide +kernel
  obtain ⟨t, hrun, hquiet⟩ := (Option.any_eq_true _ _).mp hsome
  have hquiescent : t.Quiescent := by simpa [Quiescent] using hquiet
  have hfull : Always (step true) FullTransfer (start (fun _ => 0) (fun _ => 0))
      [.sendBytes [0x55, 0x01], .writeToPort, .written 2] := by
    decide +kernel
  obtain ⟨hleads, hiff⟩ := port_eq_accepted_iff true _ _ _ t hrun
  exact ⟨t, hrun, hquiescent, hleads hfull, (hiff hquiescent).mpr hfull⟩

-- 二バイトのうち一バイトだけが渡り、残りは失われる。
theorem port_ne_accepted_two_bytes :
    ∃ t, runs (step true) (start (fun _ => 0) (fun _ => 0))
        [.sendBytes [0x55, 0x01], .writeToPort, .written 1] = some t ∧
      t.Quiescent ∧ t.port = [0x55] ∧ t.accepted = [0x55, 0x01] := by
  have hsome : (runs (step true) (start (fun _ => 0) (fun _ => 0))
      [.sendBytes [0x55, 0x01], .writeToPort, .written 1]).any
        (fun t => !t.txInProgress && t.txRbuf.isEmpty && t.port == [0x55] &&
          t.accepted == [0x55, 0x01]) = true := by
    decide +kernel
  obtain ⟨t, hrun, hfacts⟩ := (Option.any_eq_true _ _).mp hsome
  refine ⟨t, hrun, ?_⟩
  simpa [Quiescent, and_assoc] using hfacts

end AsyncSerial

end Ranger.Serial
