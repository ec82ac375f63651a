import NasServices.Encrypt.BlowFishTables
import NasServices.Encrypt.Words
import NasServices.Lib.Feistel

/-!
# The Blowfish codec

`CBlowFish` enciphers blocks of two words. `Encode` and `Decode` work on a buffer of bytes
that is read as words on a little-endian machine, each of which `change_order` turns around
before and after the cipher, alone (`ecb`) or added to the block before (`cbc`).

Decoding undoes encoding for every content of the arrays (`decodeBlocks_encodeBlocks`),
so nothing is said of `Initialize`.
-/

namespace Nas.Encrypt

inductive Mode
  | ecb | cbc
  deriving DecidableEq, Repr

structure CBlowFish where
  pArray : Vector Word 18
  sBoxes : Vector (Vector Word (2 ^ 8)) 4
  mode : Mode := .ecb

namespace CBlowFish

variable (c : CBlowFish)

/-! ## The cipher -/

def s (x : Word) (i : Fin 4) : Word := (c.sBoxes.get i).get (wbyte x i).toFin

def bfF (x : Word) : Word := ((c.s x 0 + c.s x 1) ^^^ c.s x 2) + c.s x 3

def round (a b : Word) (n : Fin 18) : Word := a ^^^ (c.bfF b ^^^ c.pArray.get n)

def encipher (xl xr : Word) : Word × Word :=
  let xl := xl ^^^ c.pArray.get 0
  let xr := c.round xr xl 1;  let xl := c.round xl xr 2
  let xr := c.round xr xl 3;  let xl := c.round xl xr 4
  let xr := c.round xr xl 5;  let xl := c.round xl xr 6
  let xr := c.round xr xl 7;  let xl := c.round xl xr 8
  let xr := c.round xr xl 9;  let xl := c.round xl xr 10
  let xr := c.round xr xl 11; let xl := c.round xl xr 12
  let xr := c.round xr xl 13; let xl := c.round xl xr 14
  let xr := c.round xr xl 15; let xl := c.round xl xr 16
  let xr := xr ^^^ c.pArray.get 17
  (xr, xl)

def decipher (xl xr : Word) : Word × Word :=
  let xl := xl ^^^ c.pArray.get 17
  let xr := c.round xr xl 16; let xl := c.round xl xr 15
  let xr := c.round xr xl 14; let xl := c.round xl xr 13
  let xr := c.round xr xl 12; let xl := c.round xl xr 11
  let xr := c.round xr xl 10; let xl := c.round xl xr 9
  let xr := c.round xr xl 8;  let xl := c.round xl xr 7
  let xr := c.round xr xl 6;  let xl := c.round xl xr 5
  let xr := c.round xr xl 4;  let xl := c.round xl xr 3
  let xr := c.round xr xl 2;  let xl := c.round xl xr 1
  let xr := xr ^^^ c.pArray.get 0
  (xr, xl)

def keys : List Word := [1, 2, 3, 4, 5, 6, 7, 8, 9, 10, 11, 12, 13, 14, 15, 16].map c.pArray.get

theorem encipher_eq (xl xr : Word) :
    c.encipher xl xr =
      let s := Lib.Feistel.rounds c.bfF (xl ^^^ c.pArray.get 0, xr) c.keys
      (s.2 ^^^ c.pArray.get 17, s.1) := (rfl)

theorem decipher_eq (xl xr : Word) :
    c.decipher xl xr =
      let s := Lib.Feistel.rounds c.bfF (xl ^^^ c.pArray.get 17, xr) c.keys.reverse
      (s.2 ^^^ c.pArray.get 0, s.1) := (rfl)

theorem decipher_encipher (xl xr : Word) :
    c.decipher (c.encipher xl xr).1 (c.encipher xl xr).2 = (xl, xr) := by
  rw [encipher_eq, decipher_eq]
  dsimp only
  have hswap (s : Word × Word) : (s.2, s.1) = s.swap := rfl
  rw [Lib.Feistel.xor_xor_cancel, hswap, Lib.Feistel.rounds_reverse]
  simp only [Prod.fst_swap, Prod.snd_swap, Lib.Feistel.xor_xor_cancel]

/-! ## Initialization -/

def keybytes (key : List Byte) : Int := (BitVec.ofNat 32 key.length).toInt

def keyIndex (key : List Byte) (j : Nat) : Nat := ((j : Int).tmod (keybytes key)).toNat

def keyWord (key : List Byte) (j : Nat) : Word :=
  aword (key.getD j 0) (key.getD (keyIndex key (j + 1)) 0) (key.getD (keyIndex key (j + 2)) 0)
    (key.getD (keyIndex key (j + 3)) 0)

def addKeyRound (key : List Byte) (t : Vector Word 18 × Nat) (i : Nat) : Vector Word 18 × Nat :=
  (t.1.setIfInBounds i (t.1.get (.ofNat 18 i) ^^^ keyWord key t.2), keyIndex key (t.2 + 4))

def addKey (key : List Byte) (p : Vector Word 18) : Vector Word 18 :=
  ((List.range 18).foldl (addKeyRound key) (p, 0)).1

def fillP (t : CBlowFish × Word × Word) (i : Nat) : CBlowFish × Word × Word :=
  let (c, datal, datar) := t
  let (datal, datar) := c.encipher datal datar
  ({ c with pArray := (c.pArray.setIfInBounds i datal).setIfInBounds (i + 1) datar }, datal, datar)

def fillS (i : Nat) (t : CBlowFish × Word × Word) (j : Nat) : CBlowFish × Word × Word :=
  let (c, datal, datar) := t
  let (datal, datar) := c.encipher datal datar
  let box := ((c.sBoxes.get (.ofNat 4 i)).setIfInBounds j datal).setIfInBounds (j + 1) datar
  ({ c with sBoxes := c.sBoxes.setIfInBounds i box }, datal, datar)

def initialize_ (key : List Byte) (mode : Mode) : CBlowFish :=
  let c : CBlowFish := { pArray := addKey key bfP, sBoxes := bfS, mode }
  let t := ((List.range 9).map (2 * ·)).foldl fillP (c, 0, 0)
  let t := (List.range 4).foldl (fun t i => ((List.range 128).map (2 * ·)).foldl (fillS i) t) t
  t.1

theorem mode_fillP (t : CBlowFish × Word × Word) (i : Nat) : (fillP t i).1.mode = t.1.mode := rfl

theorem mode_fillS (i : Nat) (t : CBlowFish × Word × Word) (j : Nat) : (fillS i t j).1.mode = t.1.mode := rfl

theorem mode_foldl {f : CBlowFish × Word × Word → Nat → CBlowFish × Word × Word}
    (hf : ∀ t i, (f t i).1.mode = t.1.mode) (is : List Nat) (t : CBlowFish × Word × Word) :
    (is.foldl f t).1.mode = t.1.mode := by
  induction is generalizing t with
  | nil => rfl
  | cons i is ih => rw [List.foldl_cons, ih, hf]

theorem mode_initialize_ (key : List Byte) (mode : Mode) : (initialize_ key mode).mode = mode := by
  simp only [initialize_]
  rw [mode_foldl (fun t i => mode_foldl (mode_fillS i) _ t), mode_foldl mode_fillP]

/-! ## Buffers -/

def loadWord (b0 b1 b2 b3 : Byte) : Word := aword b3 b2 b1 b0

def storeWord (x : Word) : List Byte :=
  [x.extractLsb' 0 8, x.extractLsb' 8 8, x.extractLsb' 16 8, x.extractLsb' 24 8]

def loadBlocks : List Byte → List (Word × Word)
  | b0 :: b1 :: b2 :: b3 :: b4 :: b5 :: b6 :: b7 :: bs =>
    (loadWord b0 b1 b2 b3, loadWord b4 b5 b6 b7) :: loadBlocks bs
  | _ => []

def storeBlocks (blocks : List (Word × Word)) : List Byte :=
  blocks.flatMap fun b => storeWord b.1 ++ storeWord b.2

def changeOrder (x : Word) : Word :=
  aword (x.extractLsb' 0 8) (x.extractLsb' 8 8) (x.extractLsb' 16 8) (x.extractLsb' 24 8)

def getOutputLength (lInputLong : Nat) : Nat :=
  let n := if c.mode = .cbc then (lInputLong + 1) % 2 ^ 32 else lInputLong % 2 ^ 32
  (n / 8 + if n % 8 ≠ 0 then 1 else 0) * 8 % 2 ^ 32

def encodeBlock (b : Word × Word) : Word × Word :=
  let (xl, xr) := c.encipher (changeOrder b.1) (changeOrder b.2)
  (changeOrder xl, changeOrder xr)

def decodeBlock (b : Word × Word) : Word × Word :=
  let (xl, xr) := c.decipher (changeOrder b.1) (changeOrder b.2)
  (changeOrder xl, changeOrder xr)

def xorBlock (a b : Word × Word) : Word × Word := (a.1 ^^^ b.1, a.2 ^^^ b.2)

def encodeBlocks (cbcVal : Word × Word) : List (Word × Word) → List (Word × Word)
  | [] => []
  | b :: bs =>
    match c.mode with
    | .ecb => c.encodeBlock b :: encodeBlocks cbcVal bs
    | .cbc => c.encodeBlock (xorBlock b cbcVal) :: encodeBlocks (c.encodeBlock (xorBlock b cbcVal)) bs

def decodeBlocks (cbcVal : Word × Word) : List (Word × Word) → List (Word × Word)
  | [] => []
  | b :: bs =>
    match c.mode with
    | .ecb => c.decodeBlock b :: decodeBlocks cbcVal bs
    | .cbc => xorBlock (c.decodeBlock b) cbcVal :: decodeBlocks b bs

def padded (input : List Byte) : List Byte :=
  let padding := c.getOutputLength input.length - input.length
  input ++ List.replicate padding (if c.mode = .cbc then BitVec.ofNat 8 padding else 0)

def encode (input : List Byte) : List Byte :=
  storeBlocks (c.encodeBlocks (0, 0) (loadBlocks (c.padded input)))

/-- The buffer that `Decode` leaves and the length that it returns. The caller has cleared
the buffer, which has room for whole blocks. -/
def decode (input : List Byte) : List Byte × Nat :=
  let lCount := (input.length + 7) / 8 * 8
  let buffer := input ++ List.replicate (lCount - input.length) 0
  let output := storeBlocks (c.decodeBlocks (0, 0) (loadBlocks buffer))
  match c.mode with
  | .ecb => (output, lCount)
  | .cbc =>
    let paddingLen := (output.getD (lCount - 1) 0).toNat
    if paddingLen ≤ 8 ∧ (output.getD (lCount - paddingLen) 0).toNat = paddingLen then
      (output.set (lCount - paddingLen) 0, lCount - paddingLen)
    else (output, lCount)

/-! ## Round trips -/

@[simp] theorem changeOrder_changeOrder (x : Word) : changeOrder (changeOrder x) = x := by
  simp [changeOrder]

theorem decodeBlock_encodeBlock (b : Word × Word) : c.decodeBlock (c.encodeBlock b) = b := by
  have hinv := c.decipher_encipher (changeOrder b.1) (changeOrder b.2)
  simp only [decodeBlock, encodeBlock, changeOrder_changeOrder, hinv]

theorem xorBlock_cancel (a b : Word × Word) : xorBlock (xorBlock a b) b = a := by
  simp only [xorBlock, Lib.Feistel.xor_xor_cancel]

/-- Decoding undoes encoding, in both modes and for all arrays. -/
theorem decodeBlocks_encodeBlocks (cbcVal : Word × Word) (bs : List (Word × Word)) :
    c.decodeBlocks cbcVal (c.encodeBlocks cbcVal bs) = bs := by
  induction bs generalizing cbcVal with
  | nil => rfl
  | cons b bs ih =>
    unfold encodeBlocks
    cases hmode : c.mode with
    | ecb => simp only [decodeBlocks, hmode, decodeBlock_encodeBlock, ih]
    | cbc => simp only [decodeBlocks, hmode, decodeBlock_encodeBlock, xorBlock_cancel, ih]

theorem length_encodeBlocks (cbcVal : Word × Word) (bs : List (Word × Word)) :
    (c.encodeBlocks cbcVal bs).length = bs.length := by
  induction bs generalizing cbcVal with
  | nil => rfl
  | cons b bs ih =>
    unfold encodeBlocks
    cases c.mode <;> simp [ih]

theorem loadBlocks_storeBlocks (bs : List (Word × Word)) : loadBlocks (storeBlocks bs) = bs := by
  induction bs with
  | nil => rfl
  | cons b bs ih =>
    have hcons : storeBlocks (b :: bs) = storeWord b.1 ++ storeWord b.2 ++ storeBlocks bs := rfl
    rw [hcons]
    simp [storeWord, loadBlocks, loadWord, ih]

theorem length_storeBlocks (bs : List (Word × Word)) : (storeBlocks bs).length = 8 * bs.length := by
  induction bs with
  | nil => rfl
  | cons b bs ih =>
    have hcons : storeBlocks (b :: bs) = storeWord b.1 ++ storeWord b.2 ++ storeBlocks bs := rfl
    rw [hcons, List.length_append, ih, List.length_cons]
    show 8 + 8 * bs.length = 8 * (bs.length + 1)
    omega

theorem storeBlocks_append (bs bs' : List (Word × Word)) :
    storeBlocks (bs ++ bs') = storeBlocks bs ++ storeBlocks bs' :=
  List.flatMap_append

theorem storeBlocks_loadBlocks {buffer : List Byte} (h : 8 ∣ buffer.length) :
    storeBlocks (loadBlocks buffer) = buffer := by
  induction buffer using loadBlocks.induct with
  | case1 b0 b1 b2 b3 b4 b5 b6 b7 bs ih =>
    have hbs : 8 ∣ bs.length := by
      simp only [List.length_cons] at h
      omega
    have hcons : ∀ b blocks, storeBlocks (b :: blocks) = storeWord b.1 ++ storeWord b.2 ++ storeBlocks blocks :=
      fun _ _ => rfl
    rw [loadBlocks, hcons, ih hbs]
    simp [storeWord, loadWord]
  | case2 bs hshort =>
    have hlen : bs.length < 8 := by
      by_contra hle
      match bs, hshort with
      | b0 :: b1 :: b2 :: b3 :: b4 :: b5 :: b6 :: b7 :: bs, hshort => exact hshort _ _ _ _ _ _ _ _ _ rfl
      | [], _ | [_], _ | [_, _], _ | [_, _, _], _ | [_, _, _, _], _ | [_, _, _, _, _], _
      | [_, _, _, _, _, _], _ | [_, _, _, _, _, _, _], _ => simp at hle
    have hnil : bs = [] := List.eq_nil_of_length_eq_zero (by omega)
    rw [hnil]
    rfl

/-! ### Without chaining -/

variable {c}

theorem decodeBlocks_ecb (hmode : c.mode = .ecb) (cbcVal : Word × Word) (bs : List (Word × Word)) :
    c.decodeBlocks cbcVal bs = bs.map c.decodeBlock := by
  induction bs with
  | nil => rfl
  | cons b bs ih => rw [decodeBlocks, hmode, List.map_cons, ih]

theorem getOutputLength_ecb (hmode : c.mode = .ecb) {n : Nat} (hn : n ≤ 2 ^ 32 - 8) :
    c.getOutputLength n = (n + 7) / 8 * 8 := by
  have hnot : ¬ c.mode = .cbc := by
    rw [hmode]
    nofun
  simp only [getOutputLength, if_neg hnot]
  split <;> omega

theorem padded_ecb (hmode : c.mode = .ecb) {input : List Byte} (hlen : input.length ≤ 2 ^ 32 - 8) :
    c.padded input = input ++ List.replicate ((input.length + 7) / 8 * 8 - input.length) 0 := by
  have hnot : ¬ c.mode = .cbc := by
    rw [hmode]
    nofun
  simp only [padded, if_neg hnot, getOutputLength_ecb hmode hlen]

theorem length_padded_ecb (hmode : c.mode = .ecb) {input : List Byte} (hlen : input.length ≤ 2 ^ 32 - 8) :
    (c.padded input).length = (input.length + 7) / 8 * 8 := by
  rw [padded_ecb hmode hlen, List.length_append, List.length_replicate]
  omega

theorem length_encode_ecb (hmode : c.mode = .ecb) {input : List Byte} (hlen : input.length ≤ 2 ^ 32 - 8) :
    (c.encode input).length = (input.length + 7) / 8 * 8 := by
  have hpadded := length_padded_ecb hmode hlen
  have hstored := storeBlocks_loadBlocks (show 8 ∣ (c.padded input).length by omega)
  have hblocks := length_storeBlocks (loadBlocks (c.padded input))
  rw [hstored] at hblocks
  rw [encode, length_storeBlocks, length_encodeBlocks, ← hblocks, hpadded]

/-- Decoding leaves the padded input in the buffer. -/
theorem decode_encode_ecb (hmode : c.mode = .ecb) {input : List Byte} (hlen : input.length ≤ 2 ^ 32 - 8) :
    c.decode (c.encode input) = (c.padded input, (input.length + 7) / 8 * 8) := by
  have hlength := length_encode_ecb hmode hlen
  have hpadded := length_padded_ecb hmode hlen
  have hround : ((input.length + 7) / 8 * 8 + 7) / 8 * 8 = (input.length + 7) / 8 * 8 := by omega
  have hblocks : storeBlocks (c.decodeBlocks (0, 0) (loadBlocks (c.encode input))) = c.padded input := by
    rw [encode, loadBlocks_storeBlocks, decodeBlocks_encodeBlocks, storeBlocks_loadBlocks (by omega)]
  simp only [decode, hmode, hlength, hround, Nat.sub_self, List.replicate_zero, List.append_nil, hblocks]

end CBlowFish

end Nas.Encrypt
