import NasServices.Encrypt.Base64InMemory

/-!
# Blowfish in memory

`Initialize` and `Decode` of `CBlowFish` with their arrays. `Initialize` takes the length of the key as an
`int`, goes round in the key with it, and fills the arrays two words at a time; `Decode` works on blocks
of eight bytes in place. As before, every access and every sum is checked.

`initialize_eq` and `decode_eq` say that both return what the functions without buffers compute, the first
one unless the length of the key is 0 as an `int` (`initialize_fault`).
-/

namespace Nas.Encrypt.InMemory

open Lib.Checked
open Lib (Checked)
open CBlowFish (storeWord loadWord)

/-! ## Blowfish -/

def cStr (s : List Byte) : List Byte := s ++ [0]

def keyByte (key : List Byte) (j : Int) (k : Nat) : Checked Byte := do
  readInt (cStr key) (← rem (← int (j + k)) (CBlowFish.keybytes key))

def addKeyRound (key : List Byte) (t : Vector Word 18 × Int) (i : Nat) : Checked (Vector Word 18 × Int) := do
  let (p, j) := t
  let b0 ← readInt (cStr key) j
  let b1 ← keyByte key j 1
  let b2 ← keyByte key j 2
  let b3 ← keyByte key j 3
  let p ← setAt p i ((← getAt p i) ^^^ aword b0 b1 b2 b3)
  return (p, ← rem (← int (j + 4)) (CBlowFish.keybytes key))

def addKey (key : List Byte) (p : Vector Word 18) : Checked (Vector Word 18) := do
  let t ← (List.range 18).foldlM (addKeyRound key) (p, 0)
  return t.1

def fillP (t : CBlowFish × Word × Word) (i : Nat) : Checked (CBlowFish × Word × Word) := do
  let (c, datal, datar) := t
  let (datal, datar) := c.encipher datal datar
  let p ← setAt c.pArray i datal
  let p ← setAt p (i + 1) datar
  return ({ c with pArray := p }, datal, datar)

def fillS (i : Nat) (t : CBlowFish × Word × Word) (j : Nat) : Checked (CBlowFish × Word × Word) := do
  let (c, datal, datar) := t
  let (datal, datar) := c.encipher datal datar
  let box ← setAt (← getAt c.sBoxes i) j datal
  let box ← setAt box (j + 1) datar
  return ({ c with sBoxes := ← setAt c.sBoxes i box }, datal, datar)

def initialize_ (key : List Byte) (mode : Mode) : Checked CBlowFish := do
  let p ← addKey key bfP
  let t ← ((List.range 9).map (2 * ·)).foldlM fillP ({ pArray := p, sBoxes := bfS, mode }, 0, 0)
  let t ← (List.range 4).foldlM (fun t i => ((List.range 128).map (2 * ·)).foldlM (fillS i) t) t
  return t.1

def decodeRound (c : CBlowFish) (t : List Byte × Word × Word) (k : Nat) :
    Checked (List Byte × Word × Word) := do
  let (output, cbcVal) := t
  let xl ← readWord output (8 * k)
  let xr ← readWord output (8 * k + 4)
  let b := c.decodeBlock (xl, xr)
  let b := match c.mode with
    | .ecb => b
    | .cbc => CBlowFish.xorBlock b cbcVal
  let output ← writeWord output (8 * k) b.1
  let output ← writeWord output (8 * k + 4) b.2
  return (output, match c.mode with
    | .ecb => cbcVal
    | .cbc => (xl, xr))

/-- `Decode` of `lSize` bytes into another buffer. The loop goes on while `lCount`, which is raised by 8,
is below `lSize`; that is the length of a decoded text, too short for `lCount` to wrap around. -/
def decode (c : CBlowFish) (pInput pOutput : List Byte) (lSize : Nat) : Checked (List Byte × Nat) := do
  let output ← writeN pOutput 0 (← readN pInput 0 lSize)
  let rounds := (lSize + 7) / 8
  let (output, _) ← (List.range rounds).foldlM (decodeRound c) (output, 0, 0)
  let lCount := 8 * rounds
  match c.mode with
  | .ecb => return (output, lCount)
  | .cbc =>
    let paddingLen := (← readInt output (lCount - 1)).toNat
    if paddingLen ≤ 8 then
      if (← readInt output (lCount - paddingLen)).toNat = paddingLen then
        return (← writeN output (lCount - paddingLen) [0], lCount - paddingLen)
      else return (output, lCount)
    else return (output, lCount)

/-! ## Initialization returns -/

theorem keybytes_eq (key : List Byte) : CBlowFish.keybytes key =
    if 2 * (key.length % 2 ^ 32) < 2 ^ 32 then ((key.length % 2 ^ 32 : Nat) : Int)
    else ((key.length % 2 ^ 32 : Nat) : Int) - 2 ^ 32 := by
  rw [CBlowFish.keybytes, BitVec.toInt_eq_toNat_cond, BitVec.toNat_ofNat]
  rfl

theorem keybytes_eq_zero_iff (key : List Byte) : CBlowFish.keybytes key = 0 ↔ key.length % 2 ^ 32 = 0 := by
  rw [keybytes_eq]
  split <;> omega

/-- The length of a key that is a negative `int` is far beyond what `keybytes` counts back. -/
theorem natAbs_keybytes_le (key : List Byte) : (CBlowFish.keybytes key).natAbs ≤ key.length := by
  rw [keybytes_eq]
  split <;> omega

/-- A remainder by `keybytes` is an index into the key, whatever its sign. -/
theorem tmod_keybytes {key : List Byte} (hkey : CBlowFish.keybytes key ≠ 0) {n : Int} (hn : 0 ≤ n) :
    0 ≤ n.tmod (CBlowFish.keybytes key) ∧ n.tmod (CBlowFish.keybytes key) < key.length := by
  have hnonneg := Int.tmod_nonneg (CBlowFish.keybytes key) hn
  have hlt : (n.tmod (CBlowFish.keybytes key)).natAbs < (CBlowFish.keybytes key).natAbs := by
    rw [Int.natAbs_tmod]
    exact Nat.mod_lt _ (Int.natAbs_pos.mpr hkey)
  have hle := natAbs_keybytes_le key
  omega

theorem getD_cStr (key : List Byte) (i : Nat) : (cStr key).getD i 0 = key.getD i 0 := by
  by_cases hi : i < key.length
  · exact List.getD_append _ _ _ _ hi
  · rw [cStr, List.getD_append_right _ _ _ _ (by omega), List.getD_eq_default key 0 (by omega)]
    cases i - key.length with
    | zero => rfl
    | succ k => rfl

theorem keyByte_eq {key : List Byte} (hkey : CBlowFish.keybytes key ≠ 0) {j k : Nat} (hj : j + k < 2 ^ 31) :
    keyByte key j k = .ok (key.getD (CBlowFish.keyIndex key (j + k)) 0) := by
  have hidx := tmod_keybytes hkey (show (0 : Int) ≤ ↑j + ↑k by omega)
  have hlen : (cStr key).length = key.length + 1 := List.length_append
  rw [keyByte, int_eq (by omega) (by omega), ok_bind, rem_eq (by omega) hkey, ok_bind,
    readInt_eq 0 hidx.1 (by omega), getD_cStr, CBlowFish.keyIndex]
  push_cast
  rfl

/-- One round of the loop, with the index that the loop without buffers has. -/
theorem addKeyRound_eq {key : List Byte} (hkey : CBlowFish.keybytes key ≠ 0) {p : Vector Word 18} {i j : Nat}
    (hi : i < 18) (hj : j < key.length) (hint : j + 4 < 2 ^ 31) :
    addKeyRound key (p, j) i =
      .ok ((CBlowFish.addKeyRound key (p, j) i).1, ↑(CBlowFish.addKeyRound key (p, j) i).2) := by
  have hlen : (cStr key).length = key.length + 1 := List.length_append
  have hbyte := fun k (hk : k ≤ 4) => keyByte_eq hkey (show j + k < 2 ^ 31 by omega)
  have hget : p.get ⟨i, hi⟩ = p.get (.ofNat 18 i) := congrArg p.get (Fin.ext (Nat.mod_eq_of_lt hi).symm)
  have hnext : (j + 4 : Int).tmod (CBlowFish.keybytes key) = ↑(CBlowFish.keyIndex key (j + 4)) :=
    (Int.toNat_of_nonneg (tmod_keybytes hkey (by omega)).1).symm
  rw [addKeyRound, readInt_eq 0 (by omega) (by omega), getD_cStr, ok_bind, hbyte 1 (by omega), ok_bind,
    hbyte 2 (by omega), ok_bind, hbyte 3 (by omega), ok_bind, getAt_eq p hi, ok_bind, setAt_eq p hi, ok_bind,
    int_eq (by omega) (by omega), ok_bind, rem_eq (by omega) hkey, ok_bind, hget, hnext]
  rfl

theorem keyIndex_le (key : List Byte) (j : Nat) : CBlowFish.keyIndex key j ≤ j := by
  have h := Int.natAbs_tmod j (CBlowFish.keybytes key)
  have hle := Nat.mod_le (Int.natAbs j) (CBlowFish.keybytes key).natAbs
  rw [CBlowFish.keyIndex]
  omega

theorem addKey_eq {key : List Byte} (hne : key ≠ []) (hkey : CBlowFish.keybytes key ≠ 0) (p : Vector Word 18) :
    addKey key p = .ok (CBlowFish.addKey key p) := by
  -- The index stays in the key, and it grows by at most 4 in a round.
  let plain := fun k => (List.range k).foldl (CBlowFish.addKeyRound key) (p, 0)
  have hloop : Returns ((List.range 18).foldlM (addKeyRound key) (p, 0)) fun t =>
      t = ((plain 18).1, ↑(plain 18).2) ∧ (plain 18).2 < key.length ∧ (plain 18).2 ≤ 4 * 18 := by
    refine returns_foldlM_range (fun k t => t = ((plain k).1, ((plain k).2 : Int)) ∧
      (plain k).2 < key.length ∧ (plain k).2 ≤ 4 * k) ⟨rfl, List.length_pos_iff.mpr hne, Nat.le_refl 0⟩ ?_
    rintro k hk _ ⟨rfl, hlt, hle⟩
    have hsucc : plain (k + 1) = CBlowFish.addKeyRound key (plain k) k := by
      show (List.range (k + 1)).foldl _ _ = _
      rw [List.range_succ, List.foldl_append]
      rfl
    have hnext := tmod_keybytes hkey (show (0 : Int) ≤ ↑((plain k).2 + 4) by omega)
    have hgrow := keyIndex_le key ((plain k).2 + 4)
    rw [addKeyRound_eq hkey hk hlt (by omega), hsucc]
    refine returns_ok ⟨rfl, ?_, ?_⟩
    · show (Int.tmod _ _).toNat < key.length
      omega
    · show CBlowFish.keyIndex key _ ≤ _
      omega
  obtain ⟨t, ht, rfl, -⟩ := hloop
  rw [addKey, ht]
  rfl

theorem fillP_eq (t : CBlowFish × Word × Word) {i : Nat} (hi : i + 1 < 18) :
    fillP t i = .ok (CBlowFish.fillP t i) := by
  rw [fillP]
  simp only [setAt_eq _ (show i < 18 by omega), setAt_eq _ hi, ok_bind]
  rfl

theorem fillS_eq {i : Nat} (hi : i < 4) (t : CBlowFish × Word × Word) {j : Nat} (hj : j + 1 < 2 ^ 8) :
    fillS i t j = .ok (CBlowFish.fillS i t j) := by
  have hget : t.1.sBoxes.get ⟨i, hi⟩ = t.1.sBoxes.get (.ofNat 4 i) :=
    congrArg _ (Fin.ext (Nat.mod_eq_of_lt hi).symm)
  rw [fillS]
  simp only [getAt_eq _ hi, setAt_eq _ (show j < 2 ^ 8 by omega), setAt_eq _ hj, setAt_eq _ hi, ok_bind, hget]
  rfl

theorem initialize_eq {key : List Byte} (hne : key ≠ []) (hkey : CBlowFish.keybytes key ≠ 0) (mode : Mode) :
    initialize_ key mode = .ok (CBlowFish.initialize_ key mode) := by
  have heven : ∀ {n i : Nat}, i ∈ (List.range n).map (2 * ·) → i + 1 < 2 * n := by
    intro n i hi
    obtain ⟨k, hk, rfl⟩ := List.mem_map.mp hi
    have := List.mem_range.mp hk
    omega
  have hboxes : ∀ t, (List.range 4).foldlM (fun t i => ((List.range 128).map (2 * ·)).foldlM (fillS i) t) t =
      .ok ((List.range 4).foldl (fun t i => ((List.range 128).map (2 * ·)).foldl (CBlowFish.fillS i) t) t) :=
    foldlM_eq_foldl fun t i hi =>
      foldlM_eq_foldl (fun u j hj => fillS_eq (List.mem_range.mp hi) u (heven hj)) t
  rw [initialize_, addKey_eq hne hkey, ok_bind, foldlM_eq_foldl (fun t i hi => fillP_eq t (heven hi)), ok_bind,
    hboxes, ok_bind]
  rfl

/-- With a length of 0 as an `int` the first index into the key is divided by zero. -/
theorem initialize_fault {key : List Byte} (hkey : CBlowFish.keybytes key = 0) (mode : Mode) :
    initialize_ key mode = .error .divisionByZero := by
  have hround : addKeyRound key (bfP, 0) 0 = .error .divisionByZero := by
    have hlen : (cStr key).length = key.length + 1 := List.length_append
    rw [addKeyRound, readInt_eq 0 (by omega) (by omega), ok_bind, keyByte, int_eq (by decide) (by decide), ok_bind,
      hkey]
    rfl
  rw [initialize_, addKey, List.range_succ_eq_map, List.foldlM_cons, hround]
  rfl

/-! ## Decoding returns -/

section Blocks

variable {c : CBlowFish} {i : Nat} {front post : List Byte}

theorem readWord_append (hi : front.length = i) (x : Word) :
    readWord (front ++ (storeWord x ++ post)) i = .ok x := by
  have hread : ∀ (done : List Byte) (b : Byte) (rest : List Byte),
      read (front ++ (done ++ b :: rest)) (i + done.length) = .ok b := by
    intro done b rest
    rw [← List.append_assoc]
    exact read_append (by rw [List.length_append, hi]) b
  have h0 : read (front ++ (storeWord x ++ post)) i = .ok (x.extractLsb' 0 8) := hread [] _ _
  have h1 : read (front ++ (storeWord x ++ post)) (i + 1) = .ok (x.extractLsb' 8 8) :=
    hread [x.extractLsb' 0 8] _ _
  have h2 : read (front ++ (storeWord x ++ post)) (i + 2) = .ok (x.extractLsb' 16 8) :=
    hread [x.extractLsb' 0 8, x.extractLsb' 8 8] _ _
  have h3 : read (front ++ (storeWord x ++ post)) (i + 3) = .ok (x.extractLsb' 24 8) :=
    hread [x.extractLsb' 0 8, x.extractLsb' 8 8, x.extractLsb' 16 8] _ _
  rw [readWord, h0, ok_bind, h1, ok_bind, h2, ok_bind, h3]
  exact congrArg Except.ok (aword_extract x)

theorem writeWord_append (hi : front.length = i) (x y : Word) :
    writeWord (front ++ (storeWord x ++ post)) i y = .ok (front ++ (storeWord y ++ post)) :=
  writeN_append hi rfl

theorem decodeRound_eq (hmode : c.mode = .ecb) {k : Nat} (hk : front.length = 8 * k) (b cbcVal : Word × Word) :
    decodeRound c (front ++ (CBlowFish.storeBlocks [b] ++ post), cbcVal) k =
      .ok (front ++ (CBlowFish.storeBlocks [c.decodeBlock b] ++ post), cbcVal) := by
  have hblock : ∀ b : Word × Word, front ++ (CBlowFish.storeBlocks [b] ++ post) =
      front ++ (storeWord b.1 ++ (storeWord b.2 ++ post)) := fun b => by
    simp [CBlowFish.storeBlocks]
  have hsecond : ∀ x, (front ++ storeWord x).length = 8 * k + 4 := fun x => by
    rw [List.length_append, length_storeWord, hk]
  have hread : readWord (front ++ (storeWord b.1 ++ (storeWord b.2 ++ post))) (8 * k + 4) = .ok b.2 := by
    rw [← List.append_assoc]
    exact readWord_append (hsecond b.1) b.2
  have hwrite : ∀ x y, writeWord (front ++ (storeWord x ++ (storeWord b.2 ++ post))) (8 * k + 4) y =
      .ok (front ++ (storeWord x ++ (storeWord y ++ post))) := fun x y => by
    rw [← List.append_assoc, writeWord_append (hsecond x), List.append_assoc]
  rw [hblock, hblock, decodeRound, readWord_append hk, ok_bind, hread, ok_bind, hmode]
  dsimp only
  rw [writeWord_append hk, ok_bind, hwrite]
  rfl

/-- The loop decodes the blocks of the buffer one after the other. -/
theorem decodeRounds_eq (hmode : c.mode = .ecb) (bs : List (Word × Word)) (post : List Byte) (cbcVal : Word × Word) :
    (List.range bs.length).foldlM (decodeRound c) (CBlowFish.storeBlocks bs ++ post, cbcVal) =
      .ok (CBlowFish.storeBlocks (c.decodeBlocks cbcVal bs) ++ post, cbcVal) := by
  rw [CBlowFish.decodeBlocks_ecb hmode]
  have hloop := returns_foldlM_range (f := decodeRound c) (n := bs.length)
    (fun k t => t = (CBlowFish.storeBlocks ((bs.take k).map c.decodeBlock) ++
      (CBlowFish.storeBlocks (bs.drop k) ++ post), cbcVal))
    (s := (CBlowFish.storeBlocks bs ++ post, cbcVal)) rfl ?_
  · obtain ⟨t, ht, rfl⟩ := hloop
    rw [ht, List.take_length, List.drop_length]
    rfl
  · rintro k hk _ rfl
    have hdone : (CBlowFish.storeBlocks ((bs.take k).map c.decodeBlock)).length = 8 * k := by
      rw [CBlowFish.length_storeBlocks, List.length_map, List.length_take, Nat.min_eq_left (by omega)]
    have hdrop : CBlowFish.storeBlocks (bs.drop k) ++ post =
        CBlowFish.storeBlocks [bs[k]] ++ (CBlowFish.storeBlocks (bs.drop (k + 1)) ++ post) := by
      rw [List.drop_eq_getElem_cons hk, ← List.singleton_append, CBlowFish.storeBlocks_append, List.append_assoc]
    rw [hdrop, decodeRound_eq hmode hdone]
    refine returns_ok ?_
    rw [List.take_succ_eq_append_getElem hk, List.map_append, CBlowFish.storeBlocks_append, List.append_assoc]
    rfl

def zeroPadded (input : List Byte) : List Byte :=
  input ++ List.replicate ((input.length + 7) / 8 * 8 - input.length) 0

theorem storeBlocks_zeroPadded (input : List Byte) :
    CBlowFish.storeBlocks (CBlowFish.loadBlocks (zeroPadded input)) = zeroPadded input ∧
      (CBlowFish.loadBlocks (zeroPadded input)).length = (input.length + 7) / 8 := by
  have hlen : (zeroPadded input).length = (input.length + 7) / 8 * 8 := by
    rw [zeroPadded, List.length_append, List.length_replicate]
    omega
  have hstored : CBlowFish.storeBlocks (CBlowFish.loadBlocks (zeroPadded input)) = zeroPadded input :=
    CBlowFish.storeBlocks_loadBlocks (by rw [hlen]; omega)
  refine ⟨hstored, ?_⟩
  have h := CBlowFish.length_storeBlocks (CBlowFish.loadBlocks (zeroPadded input))
  rw [hstored, hlen] at h
  omega

theorem decode_ecb (hmode : c.mode = .ecb) (input : List Byte) :
    c.decode input = (CBlowFish.storeBlocks (c.decodeBlocks (0, 0) (CBlowFish.loadBlocks (zeroPadded input))),
      (input.length + 7) / 8 * 8) := by
  simp only [CBlowFish.decode, hmode, zeroPadded]

theorem length_decode_ecb (hmode : c.mode = .ecb) (input : List Byte) :
    (c.decode input).1.length = (input.length + 7) / 8 * 8 := by
  rw [decode_ecb hmode, CBlowFish.decodeBlocks_ecb hmode, CBlowFish.length_storeBlocks, List.length_map,
    (storeBlocks_zeroPadded input).2, Nat.mul_comm]

/-- The buffer has one byte more than whole blocks, which stays a NUL. -/
theorem decode_eq (hmode : c.mode = .ecb) (input rest : List Byte) :
    decode c (input ++ rest) (List.replicate ((input.length + 7) / 8 * 8 + 1) 0) input.length =
      .ok ((c.decode input).1 ++ [0], (c.decode input).2) := by
  obtain ⟨hstored, hblocks⟩ := storeBlocks_zeroPadded input
  have hfits : 0 + input.length ≤ (List.replicate ((input.length + 7) / 8 * 8 + 1) (0 : Byte)).length := by
    rw [List.length_replicate]
    omega
  have hone : (input.length + 7) / 8 * 8 + 1 - input.length =
      (input.length + 7) / 8 * 8 - input.length + 1 := by omega
  have hbuffer : input ++ List.drop input.length (List.replicate ((input.length + 7) / 8 * 8 + 1) (0 : Byte)) =
      CBlowFish.storeBlocks (CBlowFish.loadBlocks (zeroPadded input)) ++ [0] := by
    rw [hstored, zeroPadded, List.drop_replicate, hone, List.replicate_succ', List.append_assoc]
  have hrounds := decodeRounds_eq hmode (CBlowFish.loadBlocks (zeroPadded input)) [0] (0, 0)
  rw [hblocks] at hrounds
  rw [decode, readN_eq (by rw [List.length_append]; omega), ok_bind, List.drop_zero, List.take_left,
    writeN_eq hfits, ok_bind, List.take_zero, List.nil_append, Nat.zero_add, hbuffer]
  dsimp only
  rw [hrounds, ok_bind, hmode, decode_ecb hmode, Nat.mul_comm 8]
  rfl

end Blocks

end Nas.Encrypt.InMemory
