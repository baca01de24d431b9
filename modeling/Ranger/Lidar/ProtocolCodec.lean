import Mathlib.Data.List.Basic
import Mathlib.Tactic.NormNum
import Mathlib.Tactic.Ring
import Mathlib.Tactic.SplitIfs

/-!
# 応答の復号

`sllidar_ros2` の `RPLidarProtocolCodec::onDecodeData`。一バイトずつ受け取り、応答が揃うたびに渡す。配列の外に触れることを `none` で
表す。
-/

namespace Ranger.Lidar

structure ProtocolMessage where
  cmd : UInt8
  payload : List UInt8
  deriving DecidableEq

inductive Status where
  | waitSync1
  | waitSync2
  | waitSizeFlag
  | waitType
  | recvPayload
  deriving DecidableEq

/-- `loopMode` は `_working_states` の最上位のビット、`len`、`cmd`、`data` は `_decodingMessage` の値である。 -/
structure Codec where
  status : Status
  loopMode : Bool
  rxPos : ℕ
  len : ℕ
  cmd : UInt8
  data : Option (List UInt8)

/-- 下位から `i` 番目のバイトを書き換える。 -/
def writeByte (len i : ℕ) (b : UInt8) : ℕ := len / 256 ^ (i + 1) * 256 ^ (i + 1) + b.toNat * 256 ^ i + len % 256 ^ i

/-- `_changeBufSize`。新しい配列の内容は、書かれる前に読まれない。 -/
def changeBufSize (data : Option (List UInt8)) (size : ℕ) : Option (List UInt8) :=
  let databufsize := (data.getD []).length
  if size = databufsize then data
  else if size < databufsize ∧ databufsize / 2 < size then data
  else some (List.replicate size 0)

namespace Codec

def onDecodeReset (c : Codec) : Codec where
  status := .waitSync1
  loopMode := false
  rxPos := 0
  len := if c.data.isSome then 1 else c.len
  cmd := c.cmd
  data := none

def create : Codec := onDecodeReset ⟨.waitSync1, false, 0, 0, 0, none⟩

/-- 一つのバイトを受け取った後の状態と、渡した応答。 -/
def decodeByte (c : Codec) (b : UInt8) : Option (Codec × Option ProtocolMessage) :=
  match c.status with
  | .waitSync1 => some (if b = 0xA5 then { c with status := .waitSync2, loopMode := false } else c, none)
  | .waitSync2 =>
      some (if b = 0x5A then { c with status := .waitSizeFlag, loopMode := false, rxPos := 0 }
        else { c with status := .waitSync1, loopMode := false }, none)
  | .waitSizeFlag =>
      let len := writeByte c.len c.rxPos b
      if c.rxPos + 1 = 4 then
        let flagbits := len / 2 ^ 30
        let size := len % 2 ^ 30
        some ({ c with
          status := .waitType
          loopMode := flagbits % 2 = 1
          rxPos := 0
          len := size
          data := changeBufSize c.data size }, none)
      else some ({ c with len := len, rxPos := c.rxPos + 1 }, none)
  | .waitType =>
      if c.len = 0 then some ({ c with cmd := b, status := .waitSync1, loopMode := false }, none)
      else some ({ c with cmd := b, status := .recvPayload }, none)
  | .recvPayload =>
      match c.data with
      | none => none
      | some buf =>
          if c.rxPos < buf.length then
            let data := buf.set c.rxPos b
            if c.rxPos + 1 = c.len then
              let c' : Codec :=
                if c.loopMode then { c with data := some data, rxPos := 0 }
                else { c with data := some data, rxPos := c.rxPos + 1, status := .waitSync1, loopMode := false }
              some (c', some ⟨c.cmd, data.take c.len⟩)
            else some ({ c with data := some data, rxPos := c.rxPos + 1 }, none)
          else none

/-- `onDecodeData` の後の状態と、渡した応答の列。 -/
def onDecodeData (c : Codec) : List UInt8 → Option (Codec × List ProtocolMessage)
  | [] => some (c, [])
  | b :: bs => do
      let r ← c.decodeByte b
      let s ← r.1.onDecodeData bs
      pure (s.1, r.2.toList ++ s.2)

/-! ## 続けて受け取る -/

/-- バイトの列 `bs` で `c` から `c'` に移り、`ms` を渡す。 -/
def Decodes (c : Codec) (bs : List UInt8) (c' : Codec) (ms : List ProtocolMessage) : Prop :=
  c.onDecodeData bs = some (c', ms)

section Decodes

variable {c c' c'' : Codec} {bs bs' : List UInt8} {ms ms' : List ProtocolMessage} {b : UInt8}

theorem Decodes.nil (c : Codec) : Decodes c [] c [] := rfl

theorem Decodes.cons {m : Option ProtocolMessage} (h : c.decodeByte b = some (c', m)) (h' : Decodes c' bs c'' ms) :
    Decodes c (b :: bs) c'' (m.toList ++ ms) := by
  have h'' : c'.onDecodeData bs = some (c'', ms) := h'
  simp [Decodes, onDecodeData, h, h'']

theorem Decodes.silent (h : c.decodeByte b = some (c', none)) (h' : Decodes c' bs c'' ms) : Decodes c (b :: bs) c'' ms :=
  h'.cons h

theorem Decodes.append (h : Decodes c bs c' ms) (h' : Decodes c' bs' c'' ms') :
    Decodes c (bs ++ bs') c'' (ms ++ ms') := by
  induction bs generalizing c ms with
  | nil =>
      cases h
      exact h'
  | cons b bs ih =>
      obtain ⟨r, hr, hrest⟩ := Option.bind_eq_some_iff.mp h
      obtain ⟨t, ht, hend⟩ := Option.bind_eq_some_iff.mp hrest
      cases hend
      rw [List.append_assoc]
      exact (ih ht).cons hr

end Decodes

end Codec

/-! ## 応答の形 -/

/-- 32 ビットの値を、下位のバイトから並べる。 -/
def le32 (v : ℕ) : List UInt8 := (List.range 4).map fun i => UInt8.ofNat (v / 256 ^ i)

/-- 大きさと旗を合わせた値。旗の最下位のビットは、応答が繰り返されることを表す。 -/
def sizeFlag (size flag : ℕ) : ℕ := size + flag * 2 ^ 30

/-- 応答の始まり。 -/
def header (size flag : ℕ) (cmd : UInt8) : List UInt8 := 0xA5 :: 0x5A :: (le32 (sizeFlag size flag) ++ [cmd])

/-- 受け取っても、応答の始まりと読まれないバイトの列。`A5` の次のバイトは、始まりの一つ目として読まれない。 -/
inductive Quiet : List UInt8 → Prop
  | nil : Quiet []
  | other {b bs} : b ≠ 0xA5 → Quiet bs → Quiet (b :: bs)
  | sync {b bs} : b ≠ 0x5A → Quiet bs → Quiet (0xA5 :: b :: bs)

/-! ## 状態 -/

/-- 応答を待っている。 -/
structure Idle (c : Codec) : Prop where
  status : c.status = .waitSync1
  len : c.len < 2 ^ 32

/-- 大きさ `n` の応答のうち、`done` を受け取った。 -/
structure Receiving (c : Codec) (loop : Bool) (cmd : UInt8) (n : ℕ) (done : List UInt8) : Prop where
  status : c.status = .recvPayload
  loopMode : c.loopMode = loop
  rxPos : c.rxPos = done.length
  len : c.len = n
  cmd : c.cmd = cmd
  small : n < 2 ^ 30
  more : done.length < n
  data : ∃ buf, c.data = some buf ∧ n ≤ buf.length ∧ buf.take done.length = done

section Steps

variable {c : Codec} {loop : Bool} {cmd b : UInt8} {n : ℕ} {done : List UInt8}

theorem idle_create : Idle .create := ⟨rfl, by decide⟩

theorem idle_onDecodeReset (h : c.len < 2 ^ 32) : Idle c.onDecodeReset := by
  refine ⟨rfl, ?_⟩
  simp only [Codec.onDecodeReset]
  split_ifs
  · decide
  · exact h

theorem length_changeBufSize (data : Option (List UInt8)) (size : ℕ) :
    size ≤ ((changeBufSize data size).getD []).length ∧ (0 < size → ∃ buf, changeBufSize data size = some buf) := by
  simp only [changeBufSize]
  split_ifs with hsame hreuse
  · refine ⟨hsame.le, fun hpos => ?_⟩
    cases data with
    | none => simp at hsame; omega
    | some buf => exact ⟨buf, rfl⟩
  · refine ⟨hreuse.1.le, fun hpos => ?_⟩
    cases data with
    | none => simp at hreuse
    | some buf => exact ⟨buf, rfl⟩
  · simp

theorem writeByte_split (len i : ℕ) (b : UInt8) :
    writeByte len i b = len % 256 ^ i + 256 ^ i * (b.toNat + 256 * (len / 256 ^ (i + 1))) := by
  rw [writeByte, Nat.pow_succ]
  ring

theorem writeByte_mod (len i : ℕ) (b : UInt8) : writeByte len i b % 256 ^ i = len % 256 ^ i := by
  rw [writeByte_split, Nat.add_mul_mod_self_left, Nat.mod_mod]

theorem writeByte_div (len i : ℕ) (b : UInt8) : writeByte len i b / 256 ^ i = b.toNat + 256 * (len / 256 ^ (i + 1)) := by
  rw [writeByte_split, Nat.add_mul_div_left _ _ (Nat.pow_pos (by decide)), Nat.div_eq_of_lt (Nat.mod_lt _ (Nat.pow_pos (by decide))),
    Nat.zero_add]

theorem writeByte_lt {len i : ℕ} (hlen : len < 2 ^ 32) (hi : i < 4) (b : UInt8) : writeByte len i b < 2 ^ 32 := by
  have hb := b.toNat_lt
  have hsplit : (2 : ℕ) ^ 32 = 256 ^ (i + 1) * 256 ^ (3 - i) := by
    rw [← Nat.pow_add, show i + 1 + (3 - i) = 4 by omega]
    rfl
  have hhigh : len / 256 ^ (i + 1) < 256 ^ (3 - i) := Nat.div_lt_of_lt_mul (hsplit ▸ hlen)
  have hdiv : writeByte len i b / 256 ^ (i + 1) = len / 256 ^ (i + 1) := by
    rw [Nat.pow_succ, ← Nat.div_div_eq_div_mul, writeByte_div, Nat.add_mul_div_left _ _ (by decide), Nat.div_eq_of_lt hb,
      Nat.zero_add, Nat.pow_succ]
  rw [hsplit]
  exact (Nat.div_lt_iff_lt_mul (Nat.pow_pos (by decide))).mp (hdiv ▸ hhigh) |>.trans_le (Nat.le_of_eq (Nat.mul_comm _ _))

/-- 一つのバイトを書いた後の、書いたところまでのバイト。 -/
theorem take_le32_writeByte {len i : ℕ} (hi : i < 4) (b : UInt8) :
    (le32 (writeByte len i b)).take (i + 1) = (le32 len).take i ++ [b] := by
  rw [le32, le32, ← List.map_take, ← List.map_take, List.take_range, List.take_range, Nat.min_eq_left (by omega),
    Nat.min_eq_left (by omega), List.range_succ, List.map_append, List.map_singleton]
  congr 1
  · apply List.map_congr_left
    intro j hj
    have hlt := List.mem_range.mp hj
    have hdvd : 256 ^ j * 256 ∣ 256 ^ i := by
      rw [← Nat.pow_succ]
      exact Nat.pow_dvd_pow _ hlt
    have hbyte (x : ℕ) : x / 256 ^ j % 256 = x % 256 ^ i % (256 ^ j * 256) / 256 ^ j := by
      rw [Nat.mod_mod_of_dvd x hdvd, Nat.mod_mul_right_div_self]
    apply UInt8.toNat_inj.mp
    rw [UInt8.toNat_ofNat', UInt8.toNat_ofNat']
    show writeByte len i b / 256 ^ j % 256 = len / 256 ^ j % 256
    rw [hbyte, hbyte, writeByte_mod]
  · congr 1
    apply UInt8.toNat_inj.mp
    have hb := b.toNat_lt
    rw [UInt8.toNat_ofNat', writeByte_div]
    omega

theorem le32_inj {v w : ℕ} (hv : v < 2 ^ 32) (hw : w < 2 ^ 32) (h : le32 v = le32 w) : v = w := by
  have hbyte (i : ℕ) (hi : i < 4) : v / 256 ^ i % 256 = w / 256 ^ i % 256 := by
    have heq := congrArg (fun l => (l[i]?).map UInt8.toNat) h
    simpa [le32, hi] using heq
  have h₀ := hbyte 0 (by decide)
  have h₁ := hbyte 1 (by decide)
  have h₂ := hbyte 2 (by decide)
  have h₃ := hbyte 3 (by decide)
  norm_num at h₀ h₁ h₂ h₃
  omega

/-- 大きさの四つのバイトを書くと、書いた値になる。 -/
theorem writeByte_le32 {len v : ℕ} (hlen : len < 2 ^ 32) (hv : v < 2 ^ 32) {b₀ b₁ b₂ b₃ : UInt8}
    (hbytes : le32 v = [b₀, b₁, b₂, b₃]) :
    writeByte (writeByte (writeByte (writeByte len 0 b₀) 1 b₁) 2 b₂) 3 b₃ = v := by
  apply le32_inj _ hv
  · rw [hbytes, ← List.take_length (l := le32 _)]
    show (le32 _).take (3 + 1) = _
    rw [take_le32_writeByte (by decide), take_le32_writeByte (by decide), take_le32_writeByte (by decide),
      take_le32_writeByte (by decide), List.take_zero]
    rfl
  · exact writeByte_lt (writeByte_lt (writeByte_lt (writeByte_lt hlen (by decide) _) (by decide) _) (by decide) _) (by decide) _

theorem decodes_sizeFlag (hstatus : c.status = .waitSizeFlag) (hpos : c.rxPos = 0) (hlen : c.len < 2 ^ 32) {v : ℕ}
    (hv : v < 2 ^ 32) : c.Decodes (le32 v) { c with
      status := .waitType
      loopMode := v / 2 ^ 30 % 2 = 1
      rxPos := 0
      len := v % 2 ^ 30
      data := changeBufSize c.data (v % 2 ^ 30) } [] := by
  obtain ⟨b₀, b₁, b₂, b₃, hbytes⟩ : ∃ b₀ b₁ b₂ b₃, le32 v = [b₀, b₁, b₂, b₃] := ⟨_, _, _, _, rfl⟩
  have hwrite := writeByte_le32 hlen hv hbytes
  obtain ⟨status, loopMode, rxPos, len, cmd, data⟩ := c
  obtain rfl : status = .waitSizeFlag := hstatus
  obtain rfl : rxPos = 0 := hpos
  rw [hbytes]
  refine Codec.Decodes.silent rfl (Codec.Decodes.silent rfl (Codec.Decodes.silent rfl (Codec.Decodes.silent ?_ (Codec.Decodes.nil _))))
  simp only [Codec.decodeByte] at hwrite ⊢
  rw [hwrite]
  rfl

/-- 始まりと読まれないバイトの列の後も、応答を待っている。 -/
theorem decodes_quiet {bs : List UInt8} (hbs : Quiet bs) (h : Idle c) : ∃ c', c.Decodes bs c' [] ∧ Idle c' := by
  induction hbs generalizing c with
  | nil => exact ⟨c, .nil c, h⟩
  | other hne _ ih =>
      obtain ⟨c', hdecodes, hidle⟩ := ih h
      refine ⟨c', hdecodes.silent ?_, hidle⟩
      simp [Codec.decodeByte, h.status, hne]
  | @sync b bs hne _ ih =>
      have hback : Idle { c with status := .waitSync1, loopMode := false } := ⟨rfl, h.len⟩
      obtain ⟨c', hdecodes, hidle⟩ := ih hback
      have hfirst : c.decodeByte 0xA5 = some ({ c with status := .waitSync2, loopMode := false }, none) := by
        simp [Codec.decodeByte, h.status]
      refine ⟨c', Codec.Decodes.silent hfirst (hdecodes.silent ?_), hidle⟩
      simp [Codec.decodeByte, hne]

/-- 応答の始まりの後。大きさが 0 の応答は渡されない。 -/
theorem decodes_header (h : Idle c) {size flag : ℕ} (hsize : size < 2 ^ 30) (hflag : flag < 4) (cmd : UInt8) :
    ∃ c', c.Decodes (header size flag cmd) c' [] ∧
      (size = 0 → Idle c') ∧ (0 < size → Receiving c' (decide (flag % 2 = 1)) cmd size []) := by
  have hv : sizeFlag size flag < 2 ^ 32 := by
    unfold sizeFlag
    omega
  have hlow : sizeFlag size flag % 2 ^ 30 = size := by
    unfold sizeFlag
    omega
  have hhigh : sizeFlag size flag / 2 ^ 30 % 2 = flag % 2 := by
    unfold sizeFlag
    omega
  obtain ⟨hroom, hbuf⟩ := length_changeBufSize c.data size
  have hsync1 : c.decodeByte 0xA5 = some ({ c with status := .waitSync2, loopMode := false }, none) := by
    simp [Codec.decodeByte, h.status]
  have hsizeFlag := decodes_sizeFlag (c := { c with status := .waitSizeFlag, loopMode := false, rxPos := 0 }) rfl rfl
    h.len hv
  rw [hlow, hhigh] at hsizeFlag
  have hend (c' : Codec) (hcmd : Codec.decodeByte { c with
        status := .waitType, loopMode := decide (flag % 2 = 1), rxPos := 0, len := size,
        data := changeBufSize c.data size } cmd = some (c', none)) : c.Decodes (header size flag cmd) c' [] :=
    (hsizeFlag.append (Codec.Decodes.silent hcmd (.nil c'))).silent rfl |>.silent hsync1
  by_cases hzero : size = 0
  · subst hzero
    exact ⟨_, hend _ rfl, fun _ => ⟨rfl, Nat.two_pow_pos 32⟩, fun hpos => absurd hpos (Nat.lt_irrefl 0)⟩
  · refine ⟨_, hend _ (by simp only [Codec.decodeByte, if_neg hzero]; rfl), fun h => absurd h hzero, fun hpos => ?_⟩
    obtain ⟨buf, hdata⟩ := hbuf hpos
    rw [hdata] at hroom
    exact ⟨rfl, rfl, rfl, rfl, rfl, hsize, hpos, buf, hdata, hroom, rfl⟩

theorem take_set {buf : List UInt8} (hlt : done.length < buf.length) (htake : buf.take done.length = done) (b : UInt8) :
    (buf.set done.length b).take (done ++ [b]).length = done ++ [b] := by
  rw [List.length_append, List.length_singleton, List.take_add_one, List.take_set_of_le (Nat.le_refl _), htake]
  simp [hlt]

/-- 応答の途中のバイト。 -/
theorem Receiving.next (h : Receiving c loop cmd n done) (hmore : done.length + 1 < n) (b : UInt8) :
    ∃ c', c.decodeByte b = some (c', none) ∧ Receiving c' loop cmd n (done ++ [b]) := by
  obtain ⟨buf, hdata, hroom, htake⟩ := h.data
  have hlt : done.length < buf.length := Nat.lt_of_lt_of_le h.more hroom
  have hne : done.length + 1 ≠ c.len := by
    rw [h.len]
    omega
  refine ⟨{ c with data := some (buf.set done.length b), rxPos := done.length + 1 }, ?_, ?_⟩
  · simp [Codec.decodeByte, h.status, h.rxPos, hdata, hlt, hne]
  · refine ⟨h.status, h.loopMode, by simp, h.len, h.cmd, h.small, by simpa using hmore, buf.set done.length b, rfl,
      by simpa using hroom, take_set hlt htake b⟩

/-- 応答の最後のバイト。 -/
theorem Receiving.last (h : Receiving c loop cmd n done) (hlast : done.length + 1 = n) (b : UInt8) :
    ∃ c', c.decodeByte b = some (c', some ⟨cmd, done ++ [b]⟩) ∧
      (loop = true → Receiving c' loop cmd n []) ∧ (loop = false → Idle c') := by
  obtain ⟨buf, hdata, hroom, htake⟩ := h.data
  have hlt : done.length < buf.length := Nat.lt_of_lt_of_le h.more hroom
  have hpayload : (buf.set done.length b).take c.len = done ++ [b] := by
    have hset := take_set hlt htake b
    rwa [List.length_append, List.length_singleton, hlast, ← h.len] at hset
  have heq : done.length + 1 = c.len := hlast.trans h.len.symm
  have hdecode : c.decodeByte b = some (if c.loopMode then { c with data := some (buf.set done.length b), rxPos := 0 }
      else { c with data := some (buf.set done.length b), rxPos := done.length + 1, status := .waitSync1, loopMode := false },
      some ⟨cmd, done ++ [b]⟩) := by
    simp only [Codec.decodeByte, h.status, h.rxPos, hdata, if_pos hlt, if_pos heq, hpayload, h.cmd]
  rw [h.loopMode] at hdecode
  refine ⟨_, hdecode, fun hloop => ?_, fun hloop => ?_⟩
  · rw [if_pos hloop]
    exact ⟨h.status, rfl, rfl, h.len, h.cmd, h.small, Nat.zero_lt_of_lt h.more, buf.set done.length b, rfl,
      by simpa using hroom, rfl⟩
  · rw [if_neg (by simp [hloop])]
    have hsmall := h.small
    exact ⟨rfl, by show c.len < 2 ^ 32; rw [h.len]; omega⟩

/-- 応答の残りのバイト。 -/
theorem Receiving.decodes {xs : List UInt8} (h : Receiving c loop cmd n done) (hlength : done.length + xs.length = n) :
    ∃ c', c.Decodes xs c' [⟨cmd, done ++ xs⟩] ∧ (loop = true → Receiving c' loop cmd n []) ∧ (loop = false → Idle c') := by
  induction xs generalizing c done with
  | nil =>
      have hmore := h.more
      simp at hlength
      omega
  | cons b xs ih =>
      rw [List.length_cons] at hlength
      by_cases hlast : done.length + 1 = n
      · obtain rfl : xs = [] := List.eq_nil_of_length_eq_zero (by omega)
        obtain ⟨c', hdecode, hloop, hidle⟩ := h.last hlast b
        exact ⟨c', (Codec.Decodes.nil c').cons hdecode, hloop, hidle⟩
      · obtain ⟨c', hdecode, hnext⟩ := h.next (by have hmore := h.more; omega) b
        obtain ⟨c'', hrest, hloop, hidle⟩ := ih hnext (by simp; omega)
        rw [List.append_assoc, List.singleton_append] at hrest
        exact ⟨c'', hrest.silent hdecode, hloop, hidle⟩

end Steps

end Ranger.Lidar
