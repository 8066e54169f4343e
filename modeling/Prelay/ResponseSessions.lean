import Prelay.NativeRead
import Prelay.ProviderStore

namespace Prelay.Store

open Json Bridge

def sessionCiphertextPrefix : String := "enc:v1:"

def encryptSessionValue (cipher : KeyCipher) (nonce : ℕ) (value : String) : Except StorageError String := do
  let ciphertext ← cipher.encrypt nonce value
  .ok (sessionCiphertextPrefix ++ ciphertext)

def decryptSessionValue (cipher : KeyCipher) (value : String) : Except StorageError String :=
  match Str.stripPrefix sessionCiphertextPrefix value with
  | some ciphertext => cipher.decrypt ciphertext
  | none => .ok value

def isEncryptedSessionValue (value : String) : Bool :=
  sessionCiphertextPrefix.toList.isPrefixOf value.toList

def KeyCipher.Lawful (cipher : KeyCipher) : Prop :=
  ∀ nonce text ciphertext, cipher.encrypt nonce text = .ok ciphertext → cipher.decrypt ciphertext = .ok text

section values

variable {cipher : KeyCipher}

theorem isEncryptedSessionValue_iff {value : String} :
    isEncryptedSessionValue value = true ↔ ∃ ciphertext, value = sessionCiphertextPrefix ++ ciphertext := by
  rw [isEncryptedSessionValue, List.isPrefixOf_iff_prefix]
  constructor
  · rintro ⟨ciphertext, h⟩
    refine ⟨String.ofList ciphertext, ?_⟩
    apply String.toList_inj.mp
    rw [String.toList_append, String.toList_ofList, h]
  · rintro ⟨ciphertext, rfl⟩
    rw [String.toList_append]
    exact List.prefix_append _ _

@[simp] theorem isEncrypted_append (ciphertext : String) :
    isEncryptedSessionValue (sessionCiphertextPrefix ++ ciphertext) = true :=
  isEncryptedSessionValue_iff.mpr ⟨ciphertext, rfl⟩

@[simp] theorem decrypt_append (cipher : KeyCipher) (ciphertext : String) :
    decryptSessionValue cipher (sessionCiphertextPrefix ++ ciphertext) = cipher.decrypt ciphertext := by
  simp only [decryptSessionValue, stripPrefix_append]

theorem stripPrefixChars_some {pre cs rest : List Char} (h : Str.stripPrefixChars pre cs = some rest) :
    cs = pre ++ rest := by
  induction pre generalizing cs with
  | nil => exact Option.some.inj h
  | cons p pre ih =>
    cases cs with
    | nil => exact nomatch h
    | cons c cs =>
      simp only [Str.stripPrefixChars] at h
      split_ifs at h with hp
      rw [ih h, hp, List.cons_append]

theorem decrypt_plain {value : String} (h : isEncryptedSessionValue value = false) :
    decryptSessionValue cipher value = .ok value := by
  unfold decryptSessionValue
  split
  next ciphertext hstrip =>
    obtain ⟨rest, hrest, -⟩ := Option.map_eq_some_iff.mp hstrip
    have happend := stripPrefixChars_some hrest
    rw [isEncryptedSessionValue, happend] at h
    exact absurd (List.isPrefixOf_iff_prefix.mpr (List.prefix_append _ rest)) (by rw [h]; exact Bool.false_ne_true)
  next => rfl

theorem isEncrypted_json {text : String} (h : (Text.fromStr text).isSome) : isEncryptedSessionValue text = false := by
  apply Bool.eq_false_iff.mpr
  intro hencrypted
  obtain ⟨ciphertext, rfl⟩ := isEncryptedSessionValue_iff.mp hencrypted
  have hparse (fuel : ℕ) (cs : List Char) : Text.parseValue fuel ('e' :: 'n' :: cs) = none := by
    cases fuel with
    | zero => rfl
    | succ fuel =>
      have hspace : Text.skipSpace ('e' :: 'n' :: cs) = 'e' :: 'n' :: cs := rfl
      have hnumber : Text.parseNumber ('e' :: 'n' :: cs) = none := rfl
      simp only [Text.parseValue, hspace]
      change (Text.parseNumber ('e' :: 'n' :: cs)).map _ = none
      rw [hnumber, Option.map_none]
  rw [Text.fromStr, String.toList_append, sessionCiphertextPrefix] at h
  have hnone := hparse (("enc:v1:".toList ++ ciphertext.toList).length + 1)
    ('c' :: ':' :: 'v' :: '1' :: ':' :: ciphertext.toList)
  rw [show "enc:v1:".toList ++ ciphertext.toList = 'e' :: 'n' :: 'c' :: ':' :: 'v' :: '1' :: ':' :: ciphertext.toList
    from rfl] at h hnone
  rw [hnone] at h
  cases h

/-- A column that stands for a text: the JSON text itself, or a ciphertext of it. -/
inductive Stored (cipher : KeyCipher) (text : String) : String → Prop
  | plain : (Text.fromStr text).isSome → Stored cipher text text
  | sealed {ciphertext : String} : cipher.decrypt ciphertext = .ok text →
      Stored cipher text (sessionCiphertextPrefix ++ ciphertext)

theorem Stored.decrypts {text value : String} (h : Stored cipher text value) :
    decryptSessionValue cipher value = .ok text := by
  cases h with
  | plain hjson => exact decrypt_plain (isEncrypted_json hjson)
  | sealed hdecrypt => rw [decrypt_append, hdecrypt]

theorem Stored.unique {text other value : String} (h : Stored cipher text value) (h' : Stored cipher other value) :
    text = other :=
  Except.ok.inj (h.decrypts.symm.trans h'.decrypts)

theorem encryptSessionValue_stored (hcipher : cipher.Lawful) {nonce : ℕ} {text value : String}
    (h : encryptSessionValue cipher nonce text = .ok value) :
    isEncryptedSessionValue value = true ∧ Stored cipher text value := by
  obtain ⟨ciphertext, hencrypt, hvalue⟩ := bind_ok h
  obtain rfl := Except.ok.inj hvalue
  exact ⟨isEncrypted_append ciphertext, .sealed (hcipher nonce text ciphertext hencrypt)⟩

end values

end Prelay.Store
