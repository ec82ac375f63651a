import NasServices.Encrypt.BlowFishInMemory

/-!
# Decryption in memory

`Decrypt_Base64_Blowfish` with its two buffers: one for the bytes that the text decodes to, and one
with whole blocks for them and a byte more. The NULs at the end are counted from behind.

`decrypt_eq` says that it returns what decryption without buffers gives. There is one way to fault: a key
whose length is 0 as an `int` (`decrypt_fault`). `safe_iff` puts them together, and `decrypt_encrypt` says
what comes back of an encrypted text.
-/

namespace Nas.Encrypt.InMemory

open Lib.Checked
open Lib (Checked)

def lastByte (output : List Byte) : Nat → Checked Nat
  | 0 => return 0
  | outputLen + 1 => do
    if (← read output outputLen) = 0 then lastByte output outputLen else return outputLen

def decryptBase64Blowfish (cipherText : CipherText) (key plainText : List Byte) : Checked (Bool × List Byte) :=
  if cipherText.1 = [] then return (false, plainText)
  else do
    match ← base64Decode (List.replicate (cipherText.1.length / 4 * 3 + 2) 0) cipherText with
    | none => return (false, plainText)
    | some (base64Output, base64OutputSize) =>
      let codec ← initialize_ key .ecb
      let outputLen := codec.getOutputLength base64OutputSize
      if outputLen = 0 then return (false, plainText)
      else
        let output := List.replicate ((outputLen + 1) % 2 ^ 32) 0
        let (output, lCount) ← decode codec base64Output output (base64OutputSize % 2 ^ 32)
        if lCount = 0 then return (false, plainText)
        else
          let outputLen ← lastByte output outputLen
          return (true, ← readN output 0 (outputLen + 1))

/-! ## Decryption returns -/

theorem lastByte_eq {output : List Byte} {n : Nat} (hn : n ≤ output.length) :
    lastByte output n = .ok (Encrypt.lastByte output n) := by
  induction n with
  | zero => rfl
  | succ n ih =>
    rw [lastByte, Encrypt.lastByte, read_eq 0 (by omega), ok_bind]
    split
    · exact ih (by omega)
    · rfl

theorem lastByte_append {output : List Byte} (rest : List Byte) {n : Nat} (hn : n ≤ output.length) :
    Encrypt.lastByte (output ++ rest) n = Encrypt.lastByte output n := by
  induction n with
  | zero => rfl
  | succ n ih => rw [Encrypt.lastByte, Encrypt.lastByte, List.getD_append _ _ _ _ (by omega), ih (by omega)]

theorem lastByte_lt (output : List Byte) {n : Nat} (hn : 0 < n) : Encrypt.lastByte output n < n := by
  induction n with
  | zero => omega
  | succ n ih =>
    rw [Encrypt.lastByte]
    split
    · by_cases h0 : n = 0
      · subst h0
        exact Nat.one_pos
      · have := ih (by omega)
        omega
    · omega

theorem length_decode_le {input : List Byte} (hlen : input.length < 2 ^ 31) {bytes : List Byte}
    (h : CXtlBase64.decode input = some bytes) : bytes.length ≤ input.length / 4 * 3 + 2 := by
  rw [base64_decode_eq hlen] at h
  have hdest : (List.replicate (input.length / 4 * 3 + 2) (0 : Byte)).length = input.length / 4 * 3 + 2 :=
    List.length_replicate
  obtain ⟨r, -, hr⟩ := modpB64Decode_returns hlen hdest
  rw [h] at hr
  have hle := hr.length_le
  omega

def returned (plainText : List Byte) : Option (List Byte) → Bool × List Byte
  | none => (false, plainText)
  | some text => (true, text)

/-- A key whose length is not 0 as an `int`: there is no fault, and the result is that of decryption
without buffers. -/
theorem decrypt_eq (cipherText : CipherText) {key : List Byte} (hne : key ≠ [])
    (hkey : CBlowFish.keybytes key ≠ 0) (plainText : List Byte) :
    decryptBase64Blowfish cipherText key plainText =
      .ok (returned plainText (Encrypt.decryptBase64Blowfish cipherText.1 key)) := by
  rw [decryptBase64Blowfish, Encrypt.decryptBase64Blowfish]
  split
  · rfl
  rw [base64Decode_eq cipherText List.length_replicate, ok_bind]
  cases hdecode : CXtlBase64.decode cipherText.1 with
  | none => rfl
  | some bytes =>
    have hbytes := length_decode_le cipherText.2 hdecode
    have hlen := cipherText.2
    have hmode : (CBlowFish.initialize_ key .ecb).mode = .ecb := CBlowFish.mode_initialize_ key .ecb
    rw [Option.map_some]
    dsimp only
    rw [initialize_eq hne hkey, ok_bind]
    generalize CBlowFish.initialize_ key .ecb = codec at hmode ⊢
    rw [CBlowFish.getOutputLength_ecb hmode (by omega)]
    split
    · rfl
    rename_i hpos
    -- the decoded length is below `2 ^ 31`, so no `uint32_t` wraps around
    have hroom : ((bytes.length + 7) / 8 * 8 + 1) % 2 ^ 32 = (bytes.length + 7) / 8 * 8 + 1 := by omega
    have hsize : bytes.length % 2 ^ 32 = bytes.length := by omega
    have hcount : (codec.decode bytes).2 = (bytes.length + 7) / 8 * 8 := congrArg Prod.snd (decode_ecb hmode bytes)
    have houtput := length_decode_ecb hmode bytes
    rw [hroom, hsize, decode_eq hmode, ok_bind]
    dsimp only
    rw [hcount, if_neg hpos, if_neg hpos,
      lastByte_eq (by rw [List.length_append, houtput]; omega), ok_bind, lastByte_append [0] (by omega)]
    have hlast := lastByte_lt (codec.decode bytes).1 (show 0 < (bytes.length + 7) / 8 * 8 by omega)
    rw [readN_eq (by rw [List.length_append, houtput]; omega), List.drop_zero,
      List.take_append_of_le_length (by omega)]
    rfl

theorem length_plain_le {cipherText key text : List Byte}
    (h : Encrypt.decryptBase64Blowfish cipherText key = some text) :
    ∃ bytes, CXtlBase64.decode cipherText = some bytes ∧ text.length ≤ (bytes.length + 7) / 8 * 8 := by
  rw [Encrypt.decryptBase64Blowfish] at h
  split at h
  · cases h
  cases hdecode : CXtlBase64.decode cipherText with
  | none =>
    rw [hdecode] at h
    cases h
  | some bytes =>
    have hmode : (CBlowFish.initialize_ key .ecb).mode = .ecb := CBlowFish.mode_initialize_ key .ecb
    have houtput := length_decode_ecb hmode bytes
    refine ⟨bytes, rfl, ?_⟩
    rw [hdecode] at h
    dsimp only at h
    split at h
    · cases h
    split at h
    · cases h
    · obtain rfl := Option.some.inj h
      rw [List.length_take, houtput]
      exact Nat.min_le_right _ _

/-- A key whose length is 0 as an `int` ends the decryption of a text that can be decoded. -/
theorem decrypt_fault {cipherText : CipherText} {bytes key : List Byte} (hne : cipherText.1 ≠ [])
    (hdecode : CXtlBase64.decode cipherText.1 = some bytes) (hkey : CBlowFish.keybytes key = 0)
    (plainText : List Byte) : decryptBase64Blowfish cipherText key plainText = .error .divisionByZero := by
  rw [decryptBase64Blowfish, if_neg hne, base64Decode_eq cipherText List.length_replicate, ok_bind, hdecode,
    Option.map_some]
  dsimp only
  rw [initialize_fault hkey]
  rfl

/-- No access is outside a buffer and the function returns: `false` with `plain_text` as it was, or
`true` with a text that is no longer than the decoded bytes in whole blocks. -/
def Safe (cipherText : CipherText) (key plainText : List Byte) : Prop :=
  ∃ ret text, decryptBase64Blowfish cipherText key plainText = .ok (ret, text) ∧
    (ret = false ∧ text = plainText ∨
      ret = true ∧ ∃ bytes, CXtlBase64.decode cipherText.1 = some bytes ∧
        text.length ≤ (bytes.length + 7) / 8 * 8)

theorem safe_returned {cipherText : CipherText} {key plainText : List Byte}
    (h : decryptBase64Blowfish cipherText key plainText =
      .ok (returned plainText (Encrypt.decryptBase64Blowfish cipherText.1 key))) :
    Safe cipherText key plainText := by
  cases hplain : Encrypt.decryptBase64Blowfish cipherText.1 key with
  | none =>
    rw [hplain] at h
    exact ⟨false, plainText, h, .inl ⟨rfl, rfl⟩⟩
  | some text =>
    rw [hplain] at h
    exact ⟨true, text, h, .inr ⟨rfl, length_plain_le hplain⟩⟩

theorem safe_iff (cipherText : CipherText) (key : { key : List Byte // key ≠ [] }) (plainText : List Byte) :
    Safe cipherText key.1 plainText ↔
      key.1.length % 2 ^ 32 ≠ 0 ∨ cipherText.1 = [] ∨ CXtlBase64.decode cipherText.1 = none := by
  constructor
  · rintro ⟨ret, text, hrun, -⟩
    by_contra hcond
    obtain ⟨hlen, hne, hdecode⟩ : key.1.length % 2 ^ 32 = 0 ∧ cipherText.1 ≠ [] ∧
        CXtlBase64.decode cipherText.1 ≠ none := by simpa only [not_or, not_not] using hcond
    obtain ⟨bytes, hbytes⟩ := Option.ne_none_iff_exists'.mp hdecode
    rw [decrypt_fault hne hbytes ((keybytes_eq_zero_iff key.1).mpr hlen)] at hrun
    cases hrun
  · rintro (hlen | hnil | hdecode)
    · exact safe_returned (decrypt_eq cipherText key.2 (mt (keybytes_eq_zero_iff key.1).mp hlen) plainText)
    · refine ⟨false, plainText, ?_, .inl ⟨rfl, rfl⟩⟩
      rw [decryptBase64Blowfish, if_pos hnil]
      rfl
    · refine ⟨false, plainText, ?_, .inl ⟨rfl, rfl⟩⟩
      rw [decryptBase64Blowfish, base64Decode_eq cipherText List.length_replicate, ok_bind, hdecode]
      split <;> rfl

def longKey : List Byte := List.replicate (2 ^ 32) 107

theorem longKey_not_safe : longKey ≠ [] ∧ ¬ Safe ⟨[65, 65, 65, 65], by decide⟩ longKey [] := by
  have hlen : longKey.length = 2 ^ 32 := List.length_replicate
  refine ⟨List.ne_nil_of_length_pos (by rw [hlen]; decide), ?_⟩
  rintro ⟨ret, text, hrun, -⟩
  have hkey : CBlowFish.keybytes longKey = 0 := (keybytes_eq_zero_iff longKey).mpr (by rw [hlen, Nat.mod_self])
  have hdecode : CXtlBase64.decode [65, 65, 65, 65] = some [0, 0, 0] := by decide +kernel
  rw [decrypt_fault (by decide) hdecode hkey] at hrun
  cases hrun

/-! ## What comes back -/

theorem lastByte_replicate (m n : Nat) : Encrypt.lastByte (List.replicate m 0) n = 0 := by
  induction n with
  | zero => rfl
  | succ n ih => rw [Encrypt.lastByte, if_pos (by grind), ih]

/-- A text does not end in a NUL, or it is one NUL. Any number of NULs may follow it when it is
encrypted; they do not come back. -/
theorem decrypt_encrypt {key text : List Byte} (hkey : key.length % 2 ^ 32 ≠ 0)
    (htext : (∃ hne : text ≠ [], text.getLast hne ≠ 0) ∨ text = [0]) {k : Nat} (hlen : text.length + k < 2 ^ 31)
    {cipherText : CipherText}
    (henc : encryptBlowfishBase64 (text ++ List.replicate k 0) key = some cipherText.1) (plainText : List Byte) :
    decryptBase64Blowfish cipherText key plainText = .ok (true, text) := by
  have hne : key ≠ [] := by
    rintro rfl
    exact hkey rfl
  have hlength : (text ++ List.replicate k (0 : Byte)).length = text.length + k := by simp
  have htext' : text ++ List.replicate k 0 ≠ [] := by
    rcases htext with ⟨h, -⟩ | rfl <;> simp [*]
  have hstrip (n : Nat) : Encrypt.lastByte (text ++ List.replicate n 0) (text.length + n) + 1 = text.length := by
    rcases htext with ⟨h, hlast⟩ | rfl
    · exact lastByte_append_replicate h hlast n
    · rw [List.singleton_append, ← List.replicate_succ, lastByte_replicate]
      rfl
  rw [encryptBlowfishBase64_eq htext' (hlength ▸ hlen)] at henc
  split at henc
  · cases henc
  rename_i hfits
  rw [decrypt_eq cipherText hne (mt (keybytes_eq_zero_iff key).mp hkey), ← Option.some.inj henc,
    decryptBase64Blowfish_padded htext' (not_le.mp hfits), hlength, List.append_assoc,
    List.replicate_append_replicate]
  -- the NULs that were encrypted and those of the last block are stripped together
  obtain ⟨n, hn⟩ : ∃ n, (text.length + k + 7) / 8 * 8 = text.length + (k + n) :=
    ⟨(text.length + k + 7) / 8 * 8 - (text.length + k), by omega⟩
  rw [hn, show text.length + (k + n) - (text.length + k) = n by omega, hstrip, List.take_left]
  rfl

theorem decrypt_encrypt_abc : ∃ cipherText : CipherText,
    encryptBlowfishBase64 ([97, 98, 99] ++ List.replicate 2 0) [107] = some cipherText.1 ∧
      decryptBase64Blowfish cipherText [107] [] = .ok (true, [97, 98, 99]) := by
  obtain ⟨cipher, henc, hfits⟩ : ∃ cipher,
      encryptBlowfishBase64 ([97, 98, 99] ++ List.replicate 2 0) [107] = some cipher ∧ cipher.length < 2 ^ 31 := by
    rw [encryptBlowfishBase64_eq (by decide) (by decide), if_neg (by decide)]
    refine ⟨_, rfl, ?_⟩
    rw [length_modpB64Encode, CBlowFish.length_encode_ecb (CBlowFish.mode_initialize_ _ .ecb) (by decide)]
    decide
  exact ⟨⟨cipher, hfits⟩, henc, decrypt_encrypt (by decide) (.inl (by decide)) (by decide) henc []⟩

end Nas.Encrypt.InMemory
