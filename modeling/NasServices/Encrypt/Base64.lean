import NasServices.Encrypt.Base64Tables
import NasServices.Encrypt.Words

/-!
# The base64 codec

`modp_b64_encode` turns three bytes into four characters, with padding at the end of the
text, and `modp_b64_decode` reads the characters in groups of four, on a little-endian
machine. Both work with tables. Decoding gives every byte string back
(`modpB64Decode_modpB64Encode`): what the tables do to one byte is decided for each of
the 256 bytes, and a group is put together from that.
-/

namespace Nas.Encrypt

def entry {w : Nat} (table : List (BitVec w)) (i : Byte) : BitVec w := table.getD i.toNat 0

def modpB64Encode : List Byte → List Byte
  | t1 :: t2 :: t3 :: str =>
    entry e0 t1 :: entry e1 ((t1 &&& 0x03#8) <<< 4 ||| (t2 >>> 4 &&& 0x0f#8)) ::
      entry e1 ((t2 &&& 0x0f#8) <<< 2 ||| (t3 >>> 6 &&& 0x03#8)) :: entry e2 t3 :: modpB64Encode str
  | [t1, t2] =>
    [entry e0 t1, entry e1 ((t1 &&& 0x03#8) <<< 4 ||| (t2 >>> 4 &&& 0x0f#8)), entry e2 ((t2 &&& 0x0f#8) <<< 2), charPad]
  | [t1] => [entry e0 t1, entry e1 ((t1 &&& 0x03#8) <<< 4), charPad, charPad]
  | [] => []

def groupBits (c0 c1 c2 c3 : Byte) : Word := entry d0 c0 ||| entry d1 c1 ||| entry d2 c2 ||| entry d3 c3

def firstBytes (n : Nat) (x : Word) : List Byte :=
  [x.extractLsb' 0 8, x.extractLsb' 8 8, x.extractLsb' 16 8, x.extractLsb' 24 8].take n

def decodeLast : Nat → List Byte → Option (List Byte)
  | 0, c0 :: c1 :: c2 :: c3 :: _ =>
    let x := groupBits c0 c1 c2 c3
    if badChar ≤ x then none else some (firstBytes 3 x)
  | 1, c0 :: _ =>
    let x := entry d0 c0
    if badChar ≤ x then none else some (firstBytes 0 x)
  | 2, c0 :: c1 :: _ =>
    let x := entry d0 c0 ||| entry d1 c1
    if badChar ≤ x then none else some (firstBytes 1 x)
  | 3, c0 :: c1 :: c2 :: _ =>
    let x := entry d0 c0 ||| entry d1 c1 ||| entry d2 c2
    if badChar ≤ x then none else some (firstBytes 2 x)
  | _, _ => none

def decodeChunks (leftover : Nat) : Nat → List Byte → Option (List Byte)
  | 0, src => decodeLast leftover src
  | chunks + 1, c0 :: c1 :: c2 :: c3 :: src =>
    let x := groupBits c0 c1 c2 c3
    if badChar ≤ x then none else (decodeChunks leftover chunks src).map (firstBytes 3 x ++ ·)
  | _ + 1, _ => none

def unpaddedLength (src : List Byte) : Nat :=
  let len := src.length
  if src.getD (len - 1) 0 = charPad then
    if src.getD (len - 2) 0 = charPad then len - 2 else len - 1
  else len

def modpB64Decode (src : List Byte) : Option (List Byte) :=
  if src.length = 0 then some []
  else if src.length < 4 ∨ src.length % 4 ≠ 0 then none
  else
    let len := unpaddedLength src
    let leftover := len % 4
    let chunks := if leftover = 0 then len / 4 - 1 else len / 4
    decodeChunks leftover chunks src

/-! ## The tables -/

/-- What a function makes of the entries of a table, from what it makes of the whole table, which
is read once for that. -/
theorem of_table {w : Nat} {α : Type} {table : List (BitVec w)} {f : BitVec w → α} {g : Byte → α}
    (h : table.map f = (List.range 256).map fun i => g (BitVec.ofNat 8 i)) (t : Byte) :
    f (entry table t) = g t := by
  have hlt : t.toNat < ((List.range 256).map fun i => g (BitVec.ofNat 8 i)).length := by
    simpa using t.isLt
  calc f (entry table t)
      = (table.map f).getD t.toNat (f 0) := (List.getD_map table 0 f).symm
    _ = g (BitVec.ofNat 8 t.toNat) := by rw [h, List.getD_eq_getElem _ _ hlt]; simp
    _ = g t := by rw [BitVec.ofNat_toNat, BitVec.setWidth_eq]

/-- The bits that the decoder finds for the characters, and that none of these is the padding. -/
theorem tables :
    e0.map (entry d0) = (List.range 256).map (fun i => aword 0#8 0#8 0#8 (BitVec.ofNat 8 i &&& 0xfc#8)) ∧
    e1.map (fun c => (entry d1 c, entry d2 c, decide (c = charPad))) =
      (List.range 256).map (fun i =>
        (aword 0#8 0#8 (BitVec.ofNat 8 i <<< 4) (BitVec.ofNat 8 i >>> 4 &&& 0x03#8),
          aword 0#8 (BitVec.ofNat 8 i <<< 6) (BitVec.ofNat 8 i >>> 2 &&& 0x0f#8) 0#8, false)) ∧
    e2.map (entry d3) = (List.range 256).map (fun i => aword 0#8 (BitVec.ofNat 8 i &&& 0x3f#8) 0#8 0#8) ∧
    e1 = e2 := by
  decide +kernel

theorem entry_d0_e0 (t : Byte) : entry d0 (entry e0 t) = aword 0#8 0#8 0#8 (t &&& 0xfc#8) :=
  of_table (g := fun t => aword 0#8 0#8 0#8 (t &&& 0xfc#8)) tables.1 t

theorem entry_e1 (i : Byte) :
    (entry d1 (entry e1 i), entry d2 (entry e1 i), decide (entry e1 i = charPad)) =
      (aword 0#8 0#8 (i <<< 4) (i >>> 4 &&& 0x03#8), aword 0#8 (i <<< 6) (i >>> 2 &&& 0x0f#8) 0#8, false) :=
  of_table (f := fun c => (entry d1 c, entry d2 c, decide (c = charPad)))
    (g := fun i => (aword 0#8 0#8 (i <<< 4) (i >>> 4 &&& 0x03#8),
      aword 0#8 (i <<< 6) (i >>> 2 &&& 0x0f#8) 0#8, false)) tables.2.1 i

theorem entry_e2 (i : Byte) : entry e2 i = entry e1 i := by rw [tables.2.2.2]

theorem entry_d1_e1 (i : Byte) : entry d1 (entry e1 i) = aword 0#8 0#8 (i <<< 4) (i >>> 4 &&& 0x03#8) :=
  congrArg (·.1) (entry_e1 i)

theorem entry_d2_e1 (i : Byte) : entry d2 (entry e1 i) = aword 0#8 (i <<< 6) (i >>> 2 &&& 0x0f#8) 0#8 :=
  congrArg (·.2.1) (entry_e1 i)

theorem entry_e1_ne_charPad (i : Byte) : entry e1 i ≠ charPad :=
  of_decide_eq_false (congrArg (·.2.2) (entry_e1 i))

theorem entry_d3_e2 (t : Byte) : entry d3 (entry e2 t) = aword 0#8 (t &&& 0x3f#8) 0#8 0#8 :=
  of_table (g := fun t => aword 0#8 (t &&& 0x3f#8) 0#8 0#8) tables.2.2.1 t

/-! ## A group of characters -/

section Group

open BitVec

variable (t1 t2 t3 : Byte)

/-- The bits of the first byte in the first two characters, decided for each byte. -/
theorem first_bits : ∀ t : Byte,
    ((t &&& 0x03#8) <<< 4 >>> 4 &&& 0x03#8 = t &&& 0x03#8) ∧ (t &&& 0x03#8) <<< 4 <<< 4 = 0#8 ∧
      (t &&& 0xfc#8) ||| (t &&& 0x03#8) = t := by
  decide +kernel

/-- Those of the second byte in the second and third character. -/
theorem second_bits : ∀ t : Byte,
    ((t >>> 4 &&& 0x0f#8) >>> 4 &&& 0x03#8 = 0#8) ∧ ((t &&& 0x0f#8) <<< 2 >>> 2 &&& 0x0f#8 = t &&& 0x0f#8) ∧
      (t &&& 0x0f#8) <<< 2 <<< 6 = 0#8 ∧ (t >>> 4 &&& 0x0f#8) <<< 4 ||| (t &&& 0x0f#8) = t := by
  decide +kernel

/-- Those of the third byte in the third and fourth character. -/
theorem third_bits : ∀ t : Byte,
    ((t >>> 6 &&& 0x03#8) >>> 2 &&& 0x0f#8 = 0#8) ∧ (t >>> 6 &&& 0x03#8) <<< 6 ||| (t &&& 0x3f#8) = t := by
  decide +kernel

/-- The first byte is the six bits of the first character and two of the second. -/
theorem first_byte :
    (t1 &&& 0xfc#8) ||| (((t1 &&& 0x03#8) <<< 4 ||| (t2 >>> 4 &&& 0x0f#8)) >>> 4 &&& 0x03#8) = t1 := by
  obtain ⟨hlow, -, hjoin⟩ := first_bits t1
  rw [ushiftRight_or_distrib, and_or_distrib_right, hlow, (second_bits t2).1, or_zero, hjoin]

/-- The second byte is four bits of the second character and four of the third. -/
theorem second_byte :
    ((t1 &&& 0x03#8) <<< 4 ||| (t2 >>> 4 &&& 0x0f#8)) <<< 4 |||
      (((t2 &&& 0x0f#8) <<< 2 ||| (t3 >>> 6 &&& 0x03#8)) >>> 2 &&& 0x0f#8) = t2 := by
  obtain ⟨-, hlow, -, hjoin⟩ := second_bits t2
  rw [shiftLeft_or_distrib, (first_bits t1).2.1, zero_or, ushiftRight_or_distrib, and_or_distrib_right, hlow,
    (third_bits t3).1, or_zero, hjoin]

/-- The third byte is two bits of the third character and the six of the fourth. -/
theorem third_byte : ((t2 &&& 0x0f#8) <<< 2 ||| (t3 >>> 6 &&& 0x03#8)) <<< 6 ||| (t3 &&& 0x3f#8) = t3 := by
  rw [shiftLeft_or_distrib, (second_bits t2).2.2.1, zero_or, (third_bits t3).2]

theorem groupBits_three :
    groupBits (entry e0 t1) (entry e1 ((t1 &&& 0x03#8) <<< 4 ||| (t2 >>> 4 &&& 0x0f#8)))
      (entry e1 ((t2 &&& 0x0f#8) <<< 2 ||| (t3 >>> 6 &&& 0x03#8))) (entry e2 t3) = aword 0#8 t3 t2 t1 := by
  rw [groupBits, entry_d0_e0, entry_d1_e1, entry_d2_e1, entry_d3_e2, aword_or, aword_or, aword_or]
  simp only [or_zero, zero_or, first_byte, second_byte, third_byte]

theorem bits_two :
    entry d0 (entry e0 t1) ||| entry d1 (entry e1 ((t1 &&& 0x03#8) <<< 4 ||| (t2 >>> 4 &&& 0x0f#8))) |||
      entry d2 (entry e2 ((t2 &&& 0x0f#8) <<< 2)) = aword 0#8 0#8 t2 t1 := by
  have h0 : 0#8 >>> 6 &&& 0x03#8 = 0#8 := by decide
  have h2 := second_byte t1 t2 0#8
  rw [h0, or_zero] at h2
  rw [entry_d0_e0, entry_d1_e1, entry_e2, entry_d2_e1, aword_or, aword_or]
  simp only [or_zero, zero_or, first_byte, h2, (second_bits t2).2.2.1]

theorem bits_one :
    entry d0 (entry e0 t1) ||| entry d1 (entry e1 ((t1 &&& 0x03#8) <<< 4)) = aword 0#8 0#8 0#8 t1 := by
  have h0 : 0#8 >>> 4 &&& 0x0f#8 = 0#8 := by decide
  have h1 := first_byte t1 0#8
  rw [h0, or_zero] at h1
  rw [entry_d0_e0, entry_d1_e1, aword_or]
  simp only [or_zero, h1, (first_bits t1).2.1]

theorem aword_lt_badChar (b1 b2 b3 : Byte) : aword 0#8 b1 b2 b3 < badChar := by
  have htop := congrArg BitVec.toNat (extract_24_aword 0#8 b1 b2 b3)
  have hlt := (aword 0#8 b1 b2 b3).isLt
  have hbad : badChar.toNat = 0x01ffffff := by decide
  rw [extractLsb'_toNat, Nat.shiftRight_eq_div_pow, toNat_ofNat] at htop
  rw [BitVec.lt_def, hbad]
  omega

end Group

/-! ## The whole text -/

theorem length_modpB64Encode (str : List Byte) : (modpB64Encode str).length = 4 * ((str.length + 2) / 3) := by
  induction str using modpB64Encode.induct with
  | case1 t1 t2 t3 str ih =>
    simp only [modpB64Encode, List.length_cons, ih]
    omega
  | case2 | case3 | case4 => simp [modpB64Encode]

/-- The last character is the padding when the last group is not a full one, and the one before
when that has a single byte. -/
theorem pads_modpB64Encode (str : List Byte) (hne : str ≠ []) :
    ((modpB64Encode str).getD (4 * ((str.length + 2) / 3) - 1) 0 = charPad ↔ str.length % 3 ≠ 0) ∧
      ((modpB64Encode str).getD (4 * ((str.length + 2) / 3) - 2) 0 = charPad ↔ str.length % 3 = 1) := by
  induction str using modpB64Encode.induct with
  | case1 t1 t2 t3 str ih =>
    by_cases hstr : str = []
    · subst hstr
      simp [modpB64Encode, entry_e1_ne_charPad, entry_e2]
    · have hlength : 0 < str.length := List.length_pos_iff.2 hstr
      have hlast : 4 * ((str.length + 1 + 1 + 1 + 2) / 3) - 1 = 4 * ((str.length + 2) / 3) - 1 + 4 := by omega
      have hlast' : 4 * ((str.length + 1 + 1 + 1 + 2) / 3) - 2 = 4 * ((str.length + 2) / 3) - 2 + 4 := by omega
      have hmod : (str.length + 1 + 1 + 1) % 3 = str.length % 3 := by omega
      simp only [modpB64Encode, List.length_cons, hlast, hlast', hmod, List.getD_cons_succ]
      exact ih hstr
  | case2 t1 t2 => simp [modpB64Encode, entry_e1_ne_charPad, entry_e2]
  | case3 t1 => simp [modpB64Encode]
  | case4 => exact absurd rfl hne

/-- What is over of the characters without the padding, and the chunks of the loop. -/
theorem decodeChunks_modpB64Encode (str : List Byte) (hne : str ≠ []) :
    decodeChunks (if str.length % 3 = 0 then 0 else str.length % 3 + 1)
      (if str.length % 3 = 0 then str.length / 3 - 1 else str.length / 3) (modpB64Encode str) = some str := by
  induction str using modpB64Encode.induct with
  | case1 t1 t2 t3 str ih =>
    by_cases hstr : str = []
    · subst hstr
      simp [modpB64Encode, decodeChunks, decodeLast, groupBits_three, aword_lt_badChar, firstBytes]
    · have hlength : 0 < str.length := List.length_pos_iff.2 hstr
      have hmod : (str.length + 1 + 1 + 1) % 3 = str.length % 3 := by omega
      have hchunks : (if str.length % 3 = 0 then (str.length + 1 + 1 + 1) / 3 - 1
          else (str.length + 1 + 1 + 1) / 3) =
          (if str.length % 3 = 0 then str.length / 3 - 1 else str.length / 3) + 1 := by
        split <;> omega
      simp only [List.length_cons, hmod, hchunks, modpB64Encode, decodeChunks, groupBits_three, ih hstr]
      simp [aword_lt_badChar, firstBytes]
  | case2 t1 t2 => simp [modpB64Encode, decodeChunks, decodeLast, bits_two, aword_lt_badChar, firstBytes]
  | case3 t1 => simp [modpB64Encode, decodeChunks, decodeLast, bits_one, aword_lt_badChar, firstBytes]
  | case4 => exact absurd rfl hne

theorem unpaddedLength_modpB64Encode (str : List Byte) (hne : str ≠ []) :
    unpaddedLength (modpB64Encode str) =
      4 * ((str.length + 2) / 3) - (if str.length % 3 = 0 then 0 else 3 - str.length % 3) := by
  have hpads := pads_modpB64Encode str hne
  simp only [unpaddedLength, length_modpB64Encode, hpads.1, hpads.2]
  split <;> split <;> omega

theorem modpB64Decode_modpB64Encode (str : List Byte) : modpB64Decode (modpB64Encode str) = some str := by
  by_cases hne : str = []
  · subst hne
    simp [modpB64Encode, modpB64Decode]
  have hpos : 0 < str.length := List.length_pos_iff.2 hne
  have hleftover : unpaddedLength (modpB64Encode str) % 4 =
      if str.length % 3 = 0 then 0 else str.length % 3 + 1 := by
    rw [unpaddedLength_modpB64Encode str hne]
    split <;> omega
  have hchunks : (if unpaddedLength (modpB64Encode str) % 4 = 0 then unpaddedLength (modpB64Encode str) / 4 - 1
      else unpaddedLength (modpB64Encode str) / 4) =
      if str.length % 3 = 0 then str.length / 3 - 1 else str.length / 3 := by
    rw [unpaddedLength_modpB64Encode str hne]
    split <;> split <;> omega
  rw [modpB64Decode, length_modpB64Encode, if_neg (by omega), if_neg (by omega)]
  dsimp only
  rw [hchunks, hleftover]
  exact decodeChunks_modpB64Encode str hne

end Nas.Encrypt
