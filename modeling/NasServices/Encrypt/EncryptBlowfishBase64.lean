import NasServices.Encrypt.Base64
import NasServices.Encrypt.BlowFish

/-!
# Encryption of a text

`Encrypt_Blowfish_Base64` pads a text with NULs, enciphers it and encodes the result;
`Decrypt_Base64_Blowfish` goes back and takes the NULs at the end away. A text that does not
end in a NUL comes back (`roundTrip_iff`), as long as the length of the encoded text is one
that an `int` holds: `modp_b64_encode` returns that length as an `int`, and
`CXtlBase64::encode` takes a negative one for a failure.
-/

namespace Nas.Encrypt

namespace CXtlBase64

/-- `encode`: the length of the input and that of the text, which is below `2 ^ 32`, are an `int`.
Of a negative length of the input `modp_b64_encode` subtracts 2, which has no result. -/
def encode (input : List Byte) : Option (List Byte) :=
  if 2 ^ 31 ≤ input.length then none
  else
    let temp := modpB64Encode input
    if 2 ^ 31 ≤ temp.length then none else some temp

def decode (input : List Byte) : Option (List Byte) :=
  let inputSize := input.length % 2 ^ 32
  if 2 ^ 31 ≤ inputSize then none else modpB64Decode (input.take inputSize)

end CXtlBase64

def encryptBlowfishBase64 (plainText key : List Byte) : Option (List Byte) :=
  if plainText = [] then none
  else
    let codec := CBlowFish.initialize_ key .ecb
    if codec.getOutputLength plainText.length = 0 then none
    else CXtlBase64.encode (codec.encode (plainText.take (plainText.length % 2 ^ 32)))

def lastByte (output : List Byte) : Nat → Nat
  | 0 => 0
  | outputLen + 1 => if output.getD outputLen 0 = 0 then lastByte output outputLen else outputLen

def decryptBase64Blowfish (cipherText key : List Byte) : Option (List Byte) :=
  if cipherText = [] then none
  else
    match CXtlBase64.decode cipherText with
    | none => none
    | some base64Output =>
      let codec := CBlowFish.initialize_ key .ecb
      let outputLen := codec.getOutputLength base64Output.length
      if outputLen = 0 then none
      else
        let (output, lCount) := codec.decode base64Output
        if lCount = 0 then none else some (output.take (lastByte output outputLen + 1))

def cipherLength (n : Nat) : Nat := 4 * (((n + 7) / 8 * 8 + 2) / 3)

/-! ## Round trips -/

theorem CXtlBase64.encode_eq {input : List Byte} (hlen : input.length < 2 ^ 31) :
    encode input =
      if 2 ^ 31 ≤ 4 * ((input.length + 2) / 3) then none else some (modpB64Encode input) := by
  rw [encode, if_neg (by omega)]
  dsimp only
  rw [length_modpB64Encode]

theorem CXtlBase64.decode_modpB64Encode {input : List Byte} (hlen : 4 * ((input.length + 2) / 3) < 2 ^ 31) :
    decode (modpB64Encode input) = some input := by
  have hmod : 4 * ((input.length + 2) / 3) % 2 ^ 32 = 4 * ((input.length + 2) / 3) := by omega
  have hle : (modpB64Encode input).length ≤ 4 * ((input.length + 2) / 3) :=
    Nat.le_of_eq (length_modpB64Encode input)
  rw [decode, length_modpB64Encode, hmod, if_neg (by omega), List.take_of_length_le hle,
    modpB64Decode_modpB64Encode]

theorem lastByte_append_replicate {text : List Byte} (hne : text ≠ [])
    (hlast : text.getLast hne ≠ 0) (k : Nat) :
    lastByte (text ++ List.replicate k 0) (text.length + k) + 1 = text.length := by
  have hpos : 0 < text.length := List.length_pos_iff.2 hne
  -- The loop passes over the first `i` NULs and stops before them.
  have hloop : ∀ i ≤ k, lastByte (text ++ List.replicate k 0) (text.length + i) + 1 = text.length := by
    intro i hi
    induction i with
    | zero =>
      obtain ⟨n, hn⟩ : ∃ n, text.length = n + 1 := ⟨text.length - 1, by omega⟩
      have hget : (text ++ List.replicate k 0).getD n 0 = text.getLast hne := by
        rw [List.getD_append _ _ _ _ (by omega), List.getD_eq_getElem _ _ (by omega), List.getLast_eq_getElem]
        simp only [hn, Nat.add_sub_cancel]
      rw [Nat.add_zero, hn, lastByte, hget, if_neg hlast]
    | succ i ih =>
      have hget : (text ++ List.replicate k 0).getD (text.length + i) (0 : Byte) = 0 := by
        rw [List.getD_append_right _ _ _ _ (by omega), List.getD_eq_getElem _ _ (by simp; omega)]
        simp
      rw [← Nat.add_assoc, lastByte, if_pos hget]
      exact ih (by omega)
  exact hloop k (Nat.le_refl k)

variable {key plain : List Byte}

/-- Encryption gives the encoded blocks if an `int` holds the length of the text. -/
theorem encryptBlowfishBase64_eq (hne : plain ≠ []) (hlen : plain.length < 2 ^ 31) :
    encryptBlowfishBase64 plain key =
      if 2 ^ 31 ≤ cipherLength plain.length then none
      else some (modpB64Encode ((CBlowFish.initialize_ key .ecb).encode plain)) := by
  have hpos : 0 < plain.length := List.length_pos_iff.2 hne
  have hmode : (CBlowFish.initialize_ key .ecb).mode = .ecb := CBlowFish.mode_initialize_ key .ecb
  have hmod : plain.length % 2 ^ 32 = plain.length := by omega
  have hlength := CBlowFish.length_encode_ecb hmode (show plain.length ≤ 2 ^ 32 - 8 by omega)
  rw [encryptBlowfishBase64, if_neg hne]
  dsimp only
  rw [CBlowFish.getOutputLength_ecb hmode (by omega), if_neg (by omega), hmod, List.take_length]
  by_cases hfits : (plain.length + 7) / 8 * 8 < 2 ^ 31
  · rw [CXtlBase64.encode_eq (by rw [hlength]; exact hfits), hlength, cipherLength]
  · have hlong : 2 ^ 31 ≤ cipherLength plain.length := by
      rw [cipherLength]
      omega
    rw [if_pos hlong, CXtlBase64.encode, if_pos (by rw [hlength]; omega)]

/-- Decryption takes the encoded blocks back to the padded text, of which it leaves out the NULs at the
end. -/
theorem decryptBase64Blowfish_padded (hne : plain ≠ []) (hlen : cipherLength plain.length < 2 ^ 31) :
    let padded := plain ++ List.replicate ((plain.length + 7) / 8 * 8 - plain.length) 0
    decryptBase64Blowfish (modpB64Encode ((CBlowFish.initialize_ key .ecb).encode plain)) key =
      some (padded.take (lastByte padded ((plain.length + 7) / 8 * 8) + 1)) := by
  have hpos : 0 < plain.length := List.length_pos_iff.2 hne
  rw [cipherLength] at hlen
  have hmode : (CBlowFish.initialize_ key .ecb).mode = .ecb := CBlowFish.mode_initialize_ key .ecb
  have hle : plain.length ≤ 2 ^ 32 - 8 := by omega
  have hlength := CBlowFish.length_encode_ecb hmode hle
  have hcipher : modpB64Encode ((CBlowFish.initialize_ key .ecb).encode plain) ≠ [] := by
    apply List.ne_nil_of_length_pos
    rw [length_modpB64Encode, hlength]
    omega
  have hround : ((plain.length + 7) / 8 * 8 + 7) / 8 * 8 = (plain.length + 7) / 8 * 8 := by omega
  rw [decryptBase64Blowfish, if_neg hcipher, CXtlBase64.decode_modpB64Encode (by rw [hlength]; exact hlen)]
  dsimp only
  rw [hlength, CBlowFish.getOutputLength_ecb hmode (by omega), hround, if_neg (by omega),
    CBlowFish.decode_encode_ecb hmode hle]
  dsimp only
  rw [if_neg (by omega), CBlowFish.padded_ecb hmode hle]

theorem decryptBase64Blowfish_encode (hne : plain ≠ []) (hlast : plain.getLast hne ≠ 0)
    (hlen : cipherLength plain.length < 2 ^ 31) :
    decryptBase64Blowfish (modpB64Encode ((CBlowFish.initialize_ key .ecb).encode plain)) key = some plain := by
  have hpadded : plain.length + ((plain.length + 7) / 8 * 8 - plain.length) = (plain.length + 7) / 8 * 8 := by
    omega
  have hstrip := lastByte_append_replicate hne hlast ((plain.length + 7) / 8 * 8 - plain.length)
  rw [hpadded] at hstrip
  rw [decryptBase64Blowfish_padded hne hlen, hstrip, List.take_left]

/-- The rounds of the cipher can be undone whatever the arrays hold, and base64 can be undone for
every byte string. A plain text that does not end in a NUL comes back exactly when the length of the
encoded text is one that an `int` holds. -/
theorem roundTrip_iff (c : CBlowFish) (xl xr : Word) (str key plain : List Byte) :
    c.decipher (c.encipher xl xr).1 (c.encipher xl xr).2 = (xl, xr) ∧
    modpB64Decode (modpB64Encode str) = some str ∧
    ∀ hne : plain ≠ [], key ≠ [] → plain.getLast hne ≠ 0 → key.length < 2 ^ 31 → plain.length < 2 ^ 31 →
      ((∃ cipher, encryptBlowfishBase64 plain key = some cipher ∧
          decryptBase64Blowfish cipher key = some plain) ↔
        cipherLength plain.length < 2 ^ 31) := by
  refine ⟨c.decipher_encipher xl xr, modpB64Decode_modpB64Encode str, ?_⟩
  intro hne _ hlast _ hlen
  rw [encryptBlowfishBase64_eq hne hlen]
  constructor
  · rintro ⟨cipher, hencrypt, _⟩
    by_contra hlong
    rw [if_pos (by omega)] at hencrypt
    cases hencrypt
  · intro hfits
    exact ⟨_, if_neg (by omega), decryptBase64Blowfish_encode hne hlast hfits⟩

theorem roundTrip_iff_abc :
    ∃ cipher, encryptBlowfishBase64 [97, 98, 99] [107] = some cipher ∧
      decryptBase64Blowfish cipher [107] = some [97, 98, 99] :=
  ((roundTrip_iff (.initialize_ [107] .ecb) 0 0 [] [107] [97, 98, 99]).2.2 (by decide) (by decide) (by decide)
    (by decide) (by decide)).2 (by decide)

def longPlain : List Byte := List.replicate (2 ^ 31 - 8) 97

theorem longPlain_refused :
    ∃ hne : longPlain ≠ [], longPlain.getLast hne ≠ 0 ∧ longPlain.length < 2 ^ 31 ∧
      encryptBlowfishBase64 longPlain [107] = none := by
  have hlength : longPlain.length = 2 ^ 31 - 8 := List.length_replicate
  have hne : longPlain ≠ [] := List.ne_nil_of_length_pos (by rw [hlength]; decide)
  have hlast : longPlain.getLast hne = 97 := List.eq_of_mem_replicate (List.getLast_mem hne)
  refine ⟨hne, by rw [hlast]; decide, by rw [hlength]; decide, ?_⟩
  rw [encryptBlowfishBase64_eq hne (by rw [hlength]; decide), hlength]
  exact if_pos (by decide)

end Nas.Encrypt
