import NasServices.Lib.Checked
import NasServices.Encrypt.EncryptBlowfishBase64

/-!
# Base64 in memory

`modp_b64_decode` and `CXtlBase64::decode` with their buffers. The decoder reads a word of four
characters and writes a word for the three bytes of it, of which the next one overwrites the last byte.
Every access is checked against the buffer it is made to, and so is every sum that is an `int`.

The functions have the names of those without buffers. `modpB64Decode_returns` and `base64Decode_eq` say
that each returns what that one computes.
-/

namespace Nas.Encrypt.InMemory

open Lib.Checked
open Lib (Checked)
open CBlowFish (storeWord loadWord)

abbrev CipherText := { bytes : List Byte // bytes.length < 2 ^ 31 }

def readWord (buf : List Byte) (i : Nat) : Checked Word := do
  let b0 ← read buf i
  let b1 ← read buf (i + 1)
  let b2 ← read buf (i + 2)
  let b3 ← read buf (i + 3)
  return loadWord b0 b1 b2 b3

def writeWord (buf : List Byte) (i : Nat) (x : Word) : Checked (List Byte) := writeN buf i (storeWord x)

/-! ## Base64 -/

structure Cursor where
  dest : List Byte
  p : Nat
  srcInt : Nat
  y : Word

def wordBits (y : Word) : Word :=
  groupBits (y.extractLsb' 0 8) (y.extractLsb' 8 8) (y.extractLsb' 16 8) (y.extractLsb' 24 8)

def decodeChunks (src : List Byte) : Nat → Cursor → Checked (Cursor × Bool)
  | 0, s => return (s, true)
  | chunks + 1, s =>
    let x := wordBits s.y
    if badChar ≤ x then return (s, false)
    else do
      let dest ← writeWord s.dest s.p x
      let y ← readWord src s.srcInt
      decodeChunks src chunks { dest, p := s.p + 3, srcInt := s.srcInt + 4, y }

/-- The characters that are over write their bytes first and are looked at afterwards. -/
def decodeLeftover (leftover chunks : Nat) (s : Cursor) (x : Word) (bytes : Nat) :
    Checked (List Byte × Int) := do
  let dest ← writeN s.dest s.p (firstBytes bytes x)
  if badChar ≤ x then return (dest, -1)
  else return (dest, ← int (3 * chunks + 6 * leftover / 8))

def decodeLast (leftover chunks : Nat) (s : Cursor) : Checked (List Byte × Int) :=
  let c0 := s.y.extractLsb' 0 8
  let c1 := s.y.extractLsb' 8 8
  let c2 := s.y.extractLsb' 16 8
  match leftover with
  | 0 =>
    let x := wordBits s.y
    if badChar ≤ x then return (s.dest, -1)
    else do
      let dest ← writeN s.dest s.p (firstBytes 3 x)
      return (dest, ← int ((chunks + 1) * 3))
  | 1 => decodeLeftover 1 chunks s (entry d0 c0) 1
  | 2 => decodeLeftover 2 chunks s (entry d0 c0 ||| entry d1 c1) 1
  | _ => decodeLeftover leftover chunks s (entry d0 c0 ||| entry d1 c1 ||| entry d2 c2) 2

def unpaddedLength (src : List Byte) (len : Nat) : Checked Nat := do
  if (← read src (len - 1)) = charPad then
    if (← read src (len - 2)) = charPad then return len - 2 else return len - 1
  else return len

def modpB64Decode (dest src : List Byte) : Checked (List Byte × Int) :=
  if src.length = 0 then return (dest, 0)
  else if src.length < 4 ∨ src.length % 4 ≠ 0 then return (dest, -1)
  else do
    let len ← unpaddedLength src src.length
    let leftover := len % 4
    let chunks := if leftover = 0 then len / 4 - 1 else len / 4
    let y ← readWord src 0
    let (s, done) ← decodeChunks src chunks { dest, p := 0, srcInt := 4, y }
    if done then decodeLast leftover chunks s else return (s.dest, -1)

def resize (s : List Byte) (n : Nat) : List Byte := s.take n ++ List.replicate (n - s.length) 0

/-- `CXtlBase64::decode`: the output buffer and `output_length`, unless it returns `false`. -/
def base64Decode (output : List Byte) (input : CipherText) : Checked (Option (List Byte × Nat)) := do
  let inputSize := input.1.length
  let tempSize ← int (inputSize / 4 * 3 + 2)
  let (temp, outputSize) ← modpB64Decode (List.replicate tempSize.toNat 0) input.1
  if outputSize < 0 then return none
  else
    let bytes ← readN (resize temp outputSize.toNat) 0 outputSize.toNat
    return some (← writeN output 0 bytes, outputSize.toNat)

/-! ## Words in buffers -/

theorem readWord_eq {buf : List Byte} {i : Nat} (h : i + 4 ≤ buf.length) :
    readWord buf i =
      .ok (loadWord (buf.getD i 0) (buf.getD (i + 1) 0) (buf.getD (i + 2) 0) (buf.getD (i + 3) 0)) := by
  rw [readWord, read_eq 0 (by omega), read_eq 0 (by omega), read_eq 0 (by omega), read_eq 0 (by omega)]
  rfl

theorem length_storeWord (x : Word) : (storeWord x).length = 4 := rfl

theorem length_firstBytes {n : Nat} (hn : n ≤ 4) (x : Word) : (firstBytes n x).length = n := by
  rw [firstBytes, List.length_take]
  exact Nat.min_eq_left hn

theorem take_firstBytes {n k : Nat} (hk : k ≤ n) (x : Word) : (firstBytes n x).take k = firstBytes k x := by
  rw [firstBytes, List.take_take, Nat.min_eq_left hk, firstBytes]

theorem wordBits_loadWord (c0 c1 c2 c3 : Byte) : wordBits (loadWord c0 c1 c2 c3) = groupBits c0 c1 c2 c3 := by
  simp [wordBits, loadWord]

/-! ## Base64 returns -/

/-- What `modp_b64_decode` has done when it returns, with `3 * n` bytes written before: `-1`, or
the number of all bytes, which are in `dest`. -/
def Decoded (dest : List Byte) (n : Nat) (out : Option (List Byte)) (r : List Byte × Int) : Prop :=
  r.1.length = dest.length ∧
    match out with
    | none => r.2 = -1
    | some bytes => r.2 = ↑(3 * n + bytes.length) ∧ r.1.take (3 * n + bytes.length) = dest.take (3 * n) ++ bytes

theorem decoded_write {dest : List Byte} {n bytes k : Nat} {x : Word} {ret : Int} (hk : k ≤ bytes)
    (hbytes : bytes ≤ 3) (hdest : 3 * n + 3 ≤ dest.length) (hret : ret = ↑(3 * n + k)) :
    Decoded dest n (some (firstBytes k x))
      (dest.take (3 * n) ++ firstBytes bytes x ++ dest.drop (3 * n + (firstBytes bytes x).length), ret) := by
  have hlen := length_firstBytes (show bytes ≤ 4 by omega) x
  have hfits : 3 * n + (firstBytes bytes x).length ≤ dest.length := by omega
  refine ⟨length_overwrite hfits, ?_⟩
  dsimp only
  rw [length_firstBytes (by omega), take_overwrite hfits (by omega), take_firstBytes hk]
  exact ⟨hret, rfl⟩

theorem decodeLeftover_returns {leftover n bytes : Nat} {s : Cursor} {x : Word} (hp : s.p = 3 * n)
    (hdest : 3 * n + 3 ≤ s.dest.length) (hint : 3 * n + 3 < 2 ^ 31) (hbytes : bytes ≤ 3)
    (hleft : 6 * leftover / 8 ≤ bytes) :
    Returns (decodeLeftover leftover n s x bytes) (Decoded s.dest n
      (if badChar ≤ x then none else some (firstBytes (6 * leftover / 8) x))) := by
  have hlen := length_firstBytes (show bytes ≤ 4 by omega) x
  have hfits : 3 * n + (firstBytes bytes x).length ≤ s.dest.length := by omega
  rw [decodeLeftover, hp, writeN_eq hfits, ok_bind]
  split
  · exact returns_ok ⟨length_overwrite hfits, rfl⟩
  · rw [int_eq (by omega) (by omega)]
    exact returns_ok (decoded_write hleft hbytes hdest (by push_cast; omega))

theorem decodeLast_returns {leftover n : Nat} {s : Cursor} {c0 c1 c2 c3 : Byte} {rest : List Byte}
    (hleft : leftover < 4) (hp : s.p = 3 * n) (hy : s.y = loadWord c0 c1 c2 c3)
    (hdest : 3 * n + 3 ≤ s.dest.length) (hint : 3 * n + 3 < 2 ^ 31) :
    Returns (decodeLast leftover n s)
      (Decoded s.dest n (Encrypt.decodeLast leftover (c0 :: c1 :: c2 :: c3 :: rest))) := by
  have h0 : s.y.extractLsb' 0 8 = c0 := by rw [hy]; exact extract_0_aword ..
  have h1 : s.y.extractLsb' 8 8 = c1 := by rw [hy]; exact extract_8_aword ..
  have h2 : s.y.extractLsb' 16 8 = c2 := by rw [hy]; exact extract_16_aword ..
  match leftover, hleft with
  | 0, _ =>
    have hlen := length_firstBytes (show 3 ≤ 4 by omega) (groupBits c0 c1 c2 c3)
    simp only [decodeLast, Encrypt.decodeLast, hy, wordBits_loadWord]
    split
    · exact returns_ok ⟨rfl, rfl⟩
    · rw [hp, writeN_eq (by omega), ok_bind, int_eq (by omega) (by omega)]
      exact returns_ok (decoded_write (Nat.le_refl 3) (Nat.le_refl 3) hdest (by push_cast; omega))
  | 1, _ =>
    simp only [decodeLast, Encrypt.decodeLast, h0]
    exact decodeLeftover_returns hp hdest hint (by decide) (by decide)
  | 2, _ =>
    simp only [decodeLast, Encrypt.decodeLast, h0, h1]
    exact decodeLeftover_returns hp hdest hint (by decide) (by decide)
  | 3, _ =>
    simp only [decodeLast, Encrypt.decodeLast, h0, h1, h2]
    exact decodeLeftover_returns hp hdest hint (by decide) (by decide)

theorem Decoded.of_chunk {dest : List Byte} {i : Nat} {x : Word} {out : Option (List Byte)} {r : List Byte × Int}
    (hfits : 3 * i + (storeWord x).length ≤ dest.length)
    (h : Decoded (dest.take (3 * i) ++ storeWord x ++ dest.drop (3 * i + (storeWord x).length)) (i + 1) out r) :
    Decoded dest i (out.map (firstBytes 3 x ++ ·)) r := by
  obtain ⟨hlen, hr⟩ := h
  rw [length_overwrite hfits] at hlen
  refine ⟨hlen, ?_⟩
  cases out with
  | none => exact hr
  | some bytes =>
    have hthree := length_firstBytes (show 3 ≤ 4 by omega) x
    have htotal : 3 * (i + 1) + bytes.length = 3 * i + (firstBytes 3 x ++ bytes).length := by
      rw [List.length_append]
      omega
    dsimp only [Option.map_some] at hr ⊢
    rw [htotal, Nat.mul_add, Nat.mul_one, take_overwrite hfits (by rw [length_storeWord]; omega),
      List.append_assoc] at hr
    exact hr

theorem drop_four {src : List Byte} {i : Nat} (h : i + 4 ≤ src.length) :
    src.drop i = src.getD i 0 :: src.getD (i + 1) 0 :: src.getD (i + 2) 0 :: src.getD (i + 3) 0 ::
      src.drop (i + 4) := by
  have hdrop : ∀ k, k < src.length → src.drop k = src.getD k 0 :: src.drop (k + 1) := by
    intro k hk
    rw [List.getD_eq_getElem _ _ hk, List.drop_eq_getElem_cons hk]
  rw [hdrop i (by omega), hdrop (i + 1) (by omega), hdrop (i + 2) (by omega), hdrop (i + 3) (by omega)]

/-- The loop from chunk `i` on and what comes after it: the word `y` was read last, and `3 * i` bytes
have been written. Each round writes four bytes, of which the next one overwrites the last. -/
theorem decodeChunks_returns {src : List Byte} {leftover n : Nat} (hleft : leftover < 4)
    (hsrc : 4 * n + 4 ≤ src.length) (hint : 3 * n + 3 < 2 ^ 31) (chunks i : Nat) (hn : i + chunks = n)
    (s : Cursor) (hp : s.p = 3 * i) (hs : s.srcInt = 4 * i + 4)
    (hy : s.y = loadWord (src.getD (4 * i) 0) (src.getD (4 * i + 1) 0) (src.getD (4 * i + 2) 0)
      (src.getD (4 * i + 3) 0)) (hdest : 3 * n + 3 ≤ s.dest.length) :
    Returns (do
        let (s, done) ← decodeChunks src chunks s
        if done then decodeLast leftover n s else return (s.dest, -1))
      (Decoded s.dest i (Encrypt.decodeChunks leftover chunks (src.drop (4 * i)))) := by
  induction chunks generalizing i s with
  | zero =>
    obtain rfl : i = n := by omega
    rw [drop_four (by omega)]
    exact decodeLast_returns hleft hp hy hdest hint
  | succ chunks ih =>
    rw [drop_four (by omega), decodeChunks, Encrypt.decodeChunks, hy, wordBits_loadWord]
    dsimp only
    split
    · exact returns_ok ⟨rfl, rfl⟩
    · rename_i hok
      generalize groupBits _ _ _ _ = x at hok ⊢
      have hfits : 3 * i + (storeWord x).length ≤ s.dest.length := by
        rw [length_storeWord]
        omega
      -- the word that is read ahead is the next group, which is there since this is not the last
      rw [hp, hs, writeWord, writeN_eq hfits, readWord_eq (by omega)]
      simp only [ok_bind]
      have hnext := ih (i + 1) (by omega)
        { dest := s.dest.take (3 * i) ++ storeWord x ++ s.dest.drop (3 * i + (storeWord x).length)
          p := 3 * i + 3
          srcInt := 4 * i + 4 + 4
          y := loadWord (src.getD (4 * i + 4) 0) (src.getD (4 * i + 4 + 1) 0) (src.getD (4 * i + 4 + 2) 0)
            (src.getD (4 * i + 4 + 3) 0) } (by dsimp only; omega) (by dsimp only; omega)
        (by simp only [Nat.mul_add, Nat.mul_one]) (by dsimp only; rw [length_overwrite hfits]; exact hdest)
      exact hnext.mono fun r hr => hr.of_chunk hfits

theorem unpaddedLength_eq {src : List Byte} (h : 2 ≤ src.length) :
    unpaddedLength src src.length = .ok (Encrypt.unpaddedLength src) := by
  rw [unpaddedLength, Encrypt.unpaddedLength, read_eq 0 (by omega), read_eq 0 (by omega)]
  simp only [ok_bind]
  split
  · split <;> rfl
  · rfl

theorem unpaddedLength_bounds (src : List Byte) :
    src.length - 2 ≤ Encrypt.unpaddedLength src ∧ Encrypt.unpaddedLength src ≤ src.length := by
  unfold Encrypt.unpaddedLength
  dsimp only
  split
  · split <;> omega
  · omega

theorem modpB64Decode_returns {dest src : List Byte} (hlen : src.length < 2 ^ 31)
    (hdest : dest.length = src.length / 4 * 3 + 2) :
    Returns (modpB64Decode dest src) (Decoded dest 0 (Encrypt.modpB64Decode src)) := by
  unfold modpB64Decode Encrypt.modpB64Decode
  split
  · exact returns_ok ⟨rfl, rfl, rfl⟩
  split
  · exact returns_ok ⟨rfl, rfl⟩
  rename_i hne hfour
  obtain ⟨hlo, hhi⟩ := unpaddedLength_bounds src
  rw [unpaddedLength_eq (by omega), ok_bind, readWord_eq (by omega), ok_bind]
  generalize Encrypt.unpaddedLength src = len at hlo hhi ⊢
  dsimp only
  -- with or without padding, all groups but the last are chunks
  have hchunks : (if len % 4 = 0 then len / 4 - 1 else len / 4) = src.length / 4 - 1 := by
    split <;> omega
  rw [hchunks]
  exact decodeChunks_returns (Nat.mod_lt len (by decide)) (by omega) (by omega) _ 0 (Nat.zero_add _) _ rfl rfl rfl
    (by dsimp only; omega)

theorem Decoded.length_le {dest bytes : List Byte} {r : List Byte × Int} (h : Decoded dest 0 (some bytes) r) :
    bytes.length ≤ dest.length := by
  obtain ⟨hlen, -, htake⟩ := h
  have hle := congrArg List.length htake
  rw [List.length_take] at hle
  simp only [Nat.mul_zero, Nat.zero_add, List.take_zero, List.nil_append] at hle
  omega

theorem base64_decode_eq {input : List Byte} (hlen : input.length < 2 ^ 31) :
    CXtlBase64.decode input = Encrypt.modpB64Decode input := by
  rw [CXtlBase64.decode, Nat.mod_eq_of_lt (by omega), if_neg (by omega), List.take_length]

theorem base64Decode_eq (input : CipherText) {output : List Byte}
    (houtput : output.length = input.1.length / 4 * 3 + 2) :
    base64Decode output input = .ok ((CXtlBase64.decode input.1).map fun bytes =>
      (bytes ++ output.drop bytes.length, bytes.length)) := by
  obtain ⟨input, hlen⟩ := input
  dsimp only at houtput ⊢
  rw [base64Decode, base64_decode_eq hlen]
  dsimp only
  rw [int_eq (by omega) (by omega), ok_bind]
  have htemp : (List.replicate ((input.length : Int) / 4 * 3 + 2).toNat (0 : Byte)).length =
      input.length / 4 * 3 + 2 := by
    rw [List.length_replicate]
    omega
  obtain ⟨⟨temp, outputSize⟩, hrun, hsize, hout⟩ := modpB64Decode_returns hlen htemp
  rw [hrun, ok_bind]
  cases hpure : Encrypt.modpB64Decode input with
  | none =>
    have hneg : outputSize = -1 := by rwa [hpure] at hout
    rw [hneg]
    rfl
  | some bytes =>
    rw [hpure] at hout
    simp only [Nat.mul_zero, Nat.zero_add, List.take_zero, List.nil_append] at hout
    obtain ⟨rfl, htake⟩ := hout
    have hle : bytes.length ≤ temp.length := by
      have h := congrArg List.length htake
      rw [List.length_take] at h
      omega
    have hresize : resize temp bytes.length = bytes := by
      rw [resize, htake, Nat.sub_eq_zero_of_le hle]
      exact List.append_nil bytes
    dsimp only
    rw [if_neg (by omega), Int.toNat_natCast, hresize, readN_eq (by omega), ok_bind, List.drop_zero,
      List.take_length, writeN_eq (by dsimp only at hsize; omega), List.take_zero, List.nil_append, Nat.zero_add]
    rfl

end Nas.Encrypt.InMemory
