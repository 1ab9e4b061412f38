import PactMesh.Tunnel.PacketDef

/-!
# Packet ciphers

An `Encryptor` protects the payload and keeps the header flag `ENCRYPTED` in step.  The AEAD ciphers
append a 28-byte tail (tag and nonce); `xor` appends and authenticates nothing.  The primitives are
the parameter `CryptoSuite`.  A packet whose flag is clear is *decrypted* by leaving it alone.

Main result: `decrypt_of_encryptWithNonce`.
-/

namespace PactMesh

open List

inductive EncryptionAlgorithm
  | xor
  | aesGcm
  | aes256Gcm
  | chaCha20
deriving DecidableEq

namespace EncryptionAlgorithm

def ofName (name : String) : Option EncryptionAlgorithm :=
  match name.toLower with
  | "xor" => some xor
  | "aes-gcm" => some aesGcm
  | "aes-256-gcm" => some aes256Gcm
  | "chacha20" => some chaCha20
  | _ => none

instance : Inhabited EncryptionAlgorithm := ⟨aesGcm⟩

end EncryptionAlgorithm

structure CryptoSuite where
  /-- AEAD encryption with empty associated data: ciphertext and tag -/
  aeadSeal : EncryptionAlgorithm → (key nonce text : List UInt8) → Option (List UInt8 × List UInt8)
  /-- AEAD decryption with empty associated data -/
  aeadOpen : EncryptionAlgorithm → (key nonce text tag : List UInt8) → Option (List UInt8)
  hmacSha256 : (key msg : List UInt8) → List UInt8

structure CryptoSuite.Lawful (C : CryptoSuite) : Prop where
  open_seal : ∀ {alg key nonce text sealed tag}, C.aeadSeal alg key nonce text = some (sealed, tag) →
    C.aeadOpen alg key nonce sealed tag = some text

inductive EncryptError
  | packetTooShort (len : ℕ)
  | decryptionFailed
  | encryptionFailed
  | invalidTag (tag : List UInt8)
deriving DecidableEq

structure StandardAeadTail where
  tag : List UInt8
  nonce : List UInt8

namespace StandardAeadTail

def tagSize : ℕ := 16

def nonceSize : ℕ := 12

def size : ℕ := tagSize + nonceSize

def refFromSuffix (payload : List UInt8) : Option StandardAeadTail :=
  if payload.length < size then none
  else
    let tail := payload.drop (payload.length - size)
    some ⟨tail.take tagSize, tail.drop tagSize⟩

theorem refFromSuffix_append {text tag nonce : List UInt8} (htag : tag.length = tagSize)
    (hnonce : nonce.length = nonceSize) :
    refFromSuffix (text ++ tag ++ nonce) = some ⟨tag, nonce⟩ := by
  have hlen : (text ++ tag ++ nonce).length = text.length + size := by
    simp only [length_append, htag, hnonce, size, Nat.add_assoc]
  have hdrop : (text ++ tag ++ nonce).drop text.length = tag ++ nonce := by
    rw [append_assoc, drop_left]
  rw [refFromSuffix, if_neg (by omega), hlen, Nat.add_sub_cancel, hdrop, ← htag]
  simp only [take_left, drop_left]

end StandardAeadTail

open StandardAeadTail

structure Encryptor where
  algorithm : EncryptionAlgorithm
  key : List UInt8
deriving DecidableEq

/-- A check that is passed. -/
theorem if_not_true {α : Type*} (a b : α) : (if !true then a else b) = b := rfl

namespace Encryptor

variable (C : CryptoSuite) (e : Encryptor)

def xorData (key data : List UInt8) : List UInt8 :=
  data.mapIdx fun i byte => byte ^^^ key.getD (i % key.length) 0

def decrypt (p : Packet) : Except EncryptError Packet :=
  if !p.hdr.isEncrypted then .ok p
  else if e.algorithm = .xor then
    .ok ⟨p.hdr.setEncrypted false, xorData e.key p.payload⟩
  else
    match refFromSuffix p.payload with
    | none => .error (.packetTooShort p.payload.length)
    | some tail =>
      let text := p.payload.take (p.payload.length - size)
      match C.aeadOpen e.algorithm e.key tail.nonce text tail.tag with
      | none => .error .decryptionFailed
      | some text => .ok ⟨p.hdr.setEncrypted false, text⟩

def encryptWithNonce (p : Packet) (nonce : List UInt8) : Except EncryptError Packet :=
  if p.hdr.isEncrypted then .ok p
  else if e.algorithm = .xor then
    .ok ⟨p.hdr.setEncrypted true, xorData e.key p.payload⟩
  else if nonce.length ≠ nonceSize then .error .encryptionFailed
  else
    match C.aeadSeal e.algorithm e.key nonce p.payload with
    | none => .error .encryptionFailed
    | some (text, tag) =>
      if tag.length ≠ tagSize then .error (.invalidTag tag)
      else .ok ⟨p.hdr.setEncrypted true, text ++ tag ++ nonce⟩

variable {C e}

theorem decrypt_of_clear {p : Packet} (h : p.hdr.isEncrypted = false) : e.decrypt C p = .ok p := by
  simp [decrypt, h]

theorem decrypt_hdr_of_encrypted {p q : Packet} (hp : p.hdr.isEncrypted = true)
    (h : e.decrypt C p = .ok q) : q.hdr = p.hdr.setEncrypted false := by
  unfold decrypt at h
  simp only [hp, if_not_true] at h
  split_ifs at h
  · cases h
    rfl
  · split at h
    · cases h
    · split at h
      · cases h
      · cases h
        rfl

section Sealed

variable {p q : Packet} {nonce : List UInt8} (hC : C.Lawful) (halg : e.algorithm ≠ .xor)
  (hclear : p.hdr.isEncrypted = false) (h : e.encryptWithNonce C p nonce = .ok q)
include halg hclear h

theorem sealed_of_encryptWithNonce :
    ∃ text tag, C.aeadSeal e.algorithm e.key nonce p.payload = some (text, tag) ∧
      tag.length = tagSize ∧ nonce.length = nonceSize ∧
      q = ⟨p.hdr.setEncrypted true, text ++ tag ++ nonce⟩ := by
  unfold encryptWithNonce at h
  simp only [hclear, Bool.false_eq_true, if_false, halg] at h
  split_ifs at h with hnonce
  split at h
  · cases h
  · next text tag hseal =>
    split_ifs at h with htag
    cases h
    exact ⟨text, tag, hseal, not_not.1 htag, not_not.1 hnonce, rfl⟩

include hC in
/-- **What an AEAD cipher encrypts it decrypts.** -/
theorem decrypt_of_encryptWithNonce : e.decrypt C q = .ok p := by
  obtain ⟨text, tag, hseal, htag, hnonce, rfl⟩ := sealed_of_encryptWithNonce halg hclear h
  have hlen : (text ++ tag ++ nonce).length - size = text.length := by
    simp [size, htag, hnonce]
  have htake : (text ++ tag ++ nonce).take text.length = text := by
    rw [append_assoc, take_left]
  simp only [decrypt, PeerManagerHeader.isEncrypted_setEncrypted, if_not_true, halg, if_false,
    refFromSuffix_append htag hnonce, hlen, htake, hC.open_seal hseal,
    PeerManagerHeader.setEncrypted_setEncrypted _ hclear]

theorem refFromSuffix_of_encryptWithNonce : ∃ tag, refFromSuffix q.payload = some ⟨tag, nonce⟩ := by
  obtain ⟨text, tag, -, htag, hnonce, rfl⟩ := sealed_of_encryptWithNonce halg hclear h
  exact ⟨tag, refFromSuffix_append htag hnonce⟩

end Sealed

end Encryptor

def createEncryptor (algorithm : String) (key128 key256 : List UInt8) : Encryptor :=
  let algorithm := (EncryptionAlgorithm.ofName algorithm).getD default
  match algorithm with
  | .xor => ⟨.xor, key128⟩
  | .aesGcm => ⟨.aesGcm, key128⟩
  | .aes256Gcm => ⟨.aes256Gcm, key256⟩
  | .chaCha20 => ⟨.chaCha20, key256⟩

@[simp] theorem createEncryptor_algorithm (algorithm : String) (key128 key256 : List UInt8) :
    (createEncryptor algorithm key128 key256).algorithm =
      (EncryptionAlgorithm.ofName algorithm).getD default := by
  simp only [createEncryptor]
  cases (EncryptionAlgorithm.ofName algorithm).getD default <;> rfl

theorem createEncryptor_algorithm_ne_xor {algorithm : String}
    (h : EncryptionAlgorithm.ofName algorithm ≠ some .xor) (key128 key256 : List UInt8) :
    (createEncryptor algorithm key128 key256).algorithm ≠ .xor := by
  rw [createEncryptor_algorithm]
  cases hname : EncryptionAlgorithm.ofName algorithm with
  | none => exact nofun
  | some alg =>
    rintro rfl
    exact h hname

def transparentSuite : CryptoSuite where
  aeadSeal _ _ _ text := some (text, List.replicate 16 0)
  aeadOpen _ _ _ text _ := some text
  hmacSha256 _ _ := []

def samplePacket : Packet where
  hdr := { (default : PeerManagerHeader) with packetType := PacketType.data.toByte }
  payload := []

end PactMesh
