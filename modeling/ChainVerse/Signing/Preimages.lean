import ChainVerse.Host.Bytes
import ChainVerse.Host.Issuance
import ChainVerse.Outbox.Types

namespace ChainVerse.Signing

/-- The host functions that a payload depends on. -/
structure Host where
  sha256 : List Byte → Bytes32
  /-- The XDR encoding of an address. -/
  addressXdr : Address → List Byte
  /-- The XDR encoding of a symbol. -/
  symbolXdr : Symbol → List Byte

inductive SigningError where
  | unsupportedVersion
  | domainMismatch
  deriving DecidableEq, Repr

/-- What a signature is for. -/
inductive MessageType where
  | issuerOffer
  | membershipClaim
  | fineAssessment
  | delegatedSession
  | debtSettlement
  | payoutWalletProof
  deriving DecidableEq, Repr

def MessageType.tag : MessageType → Symbol
  | .issuerOffer => "issuer_offer"
  | .membershipClaim => "membership_claim"
  | .fineAssessment => "fine_assessment"
  | .delegatedSession => "delegated_session"
  | .debtSettlement => "debt_settlement"
  | .payoutWalletProof => "payout_wallet_proof"

def domainTag : List Byte := asciiBytes "ChainVerse.Library"

def envelopeVersion : Nat := 1

/-- The domain a signature is scoped to. -/
structure SigningDomain where
  version : Nat
  networkId : Bytes32
  contract : Address
  messageType : MessageType
  deriving DecidableEq, Repr

def checkVersion (domain : SigningDomain) : Except SigningError Unit :=
  refuseIf (domain.version ≠ envelopeVersion) .unsupportedVersion

/-- The bytes that are hashed, every field at a fixed offset. -/
def canonicalPreimage (host : Host) (domain : SigningDomain) (bodyHash : Bytes32) :
    Except SigningError (List Byte) := do
  checkVersion domain
  pure (domainTag ++ beBytes 4 domain.version ++ bytes32 domain.networkId ++
    bytes32 (host.sha256 (host.addressXdr domain.contract)) ++
    bytes32 (host.sha256 (host.symbolXdr domain.messageType.tag)) ++ bytes32 bodyHash)

/-- The digest that an off-chain signer signs. -/
def signingPayload (host : Host) (domain : SigningDomain) (bodyHash : Bytes32) :
    Except SigningError Bytes32 := do
  let preimage ← canonicalPreimage host domain bodyHash
  pure (host.sha256 preimage)

section Commitments

def commitmentTag : List Byte := asciiBytes "ChainVerse.Library.Ident"

def saltLen : Nat := 32

inductive CommitmentError where
  | invalidSalt
  | unseededSalt
  | emptyIdentifier
  | invalidSaltVersion
  deriving DecidableEq, Repr

/-- Which space an identifier belongs to. -/
inductive IdentifierKind where
  | isbn
  | barcode
  | studentId
  | patronId
  | documentHash
  | readingList
  deriving DecidableEq, Repr

def IdentifierKind.tag : IdentifierKind → Nat
  | .isbn => 1
  | .barcode => 2
  | .studentId => 3
  | .patronId => 4
  | .documentHash => 5
  | .readingList => 6

def validateSalt (salt : List Byte) : Except CommitmentError Unit := do
  refuseIf (salt.length ≠ saltLen) .invalidSalt
  refuseIf (∀ byte ∈ salt, byte = 0) .unseededSalt

/-- The bytes that are hashed into a commitment. -/
def commitmentPreimage (host : Host) (kind : IdentifierKind) (saltVersion : Nat)
    (institutionSalt identifier : List Byte) : Except CommitmentError (List Byte) := do
  refuseIf (saltVersion = 0) .invalidSaltVersion
  validateSalt institutionSalt
  refuseIf (identifier = []) .emptyIdentifier
  pure (commitmentTag ++ beBytes 4 kind.tag ++ beBytes 4 saltVersion ++ institutionSalt ++
    bytes32 (host.sha256 identifier))

end Commitments

section Messages

/-- What is hashed and signed, or hashed and published. -/
inductive Message where
  | webhook (envelope : ScholarshipOutbox.WebhookEnvelope) (payloadHash : Bytes32)
  | shared (domain : SigningDomain) (bodyHash : Bytes32)
  | commitment (kind : IdentifierKind) (saltVersion : Nat) (institutionSalt identifier : List Byte)
  deriving DecidableEq, Repr

inductive MessageKind where
  | webhook
  | shared
  | commitment
  deriving DecidableEq, Repr

def Message.kind : Message → MessageKind
  | .webhook .. => .webhook
  | .shared .. => .shared
  | .commitment .. => .commitment

/-- The bytes of a message, if it is well formed. -/
def Message.preimage (host : Host) : Message → Option (List Byte)
  | .webhook envelope payloadHash =>
    some (ScholarshipOutbox.canonicalPreimage ⟨host.sha256, host.addressXdr, envelope.networkId⟩
      envelope payloadHash)
  | .shared domain bodyHash => (canonicalPreimage host domain bodyHash).toOption
  | .commitment kind saltVersion institutionSalt identifier =>
    (commitmentPreimage host kind saltVersion institutionSalt identifier).toOption

/-- The integers of a message are within their types. -/
def Message.Fits : Message → Prop
  | .webhook envelope _ => envelope.version < 2^32 ∧ envelope.endpointId < 2^64 ∧
      envelope.secretEpoch < 2^32 ∧ envelope.eventId < 2^64 ∧ envelope.sequence < 2^64 ∧
      envelope.expiresAt < 2^64
  | .shared domain _ => domain.version < 2^32
  | .commitment _ saltVersion _ _ => saltVersion < 2^32

/-- The contract that a message is valid against. -/
def Message.contract : Message → Option Address
  | .webhook envelope _ => envelope.contract
  | .shared domain _ => domain.contract
  | .commitment .. => none

/-- The symbol that a message has in it. -/
def Message.symbol : Message → Option Symbol
  | .shared domain _ => domain.messageType.tag
  | _ => none

/-- The byte strings of which a message has the digest in it. -/
def Message.hashed (host : Host) : Message → List (List Byte)
  | .webhook envelope _ => [host.addressXdr envelope.contract]
  | .shared domain _ => [host.addressXdr domain.contract, host.symbolXdr domain.messageType.tag]
  | .commitment _ _ _ identifier => [identifier]

/-- The encodings tell apart the addresses and the symbols of two messages, and no two of the byte
strings that they have hashed collide. -/
structure Separates (host : Host) (m m' : Message) : Prop where
  addresses : ∀ a ∈ m.contract, ∀ b ∈ m'.contract, host.addressXdr a = host.addressXdr b → a = b
  symbols : ∀ x ∈ m.symbol, ∀ y ∈ m'.symbol, host.symbolXdr x = host.symbolXdr y → x = y
  hashes : CollisionFree host.sha256 (m.hashed host ++ m'.hashed host)

end Messages

section Lengths

variable {host : Host} {m m' : Message} {bytes : List Byte}

@[simp] theorem length_domainTag : domainTag.length = 18 := rfl
@[simp] theorem length_webhookTag : ScholarshipOutbox.domainTag.length = 25 := rfl
@[simp] theorem length_commitmentTag : commitmentTag.length = 24 := rfl

/-- The length of the bytes of each kind. -/
def MessageKind.length : MessageKind → Nat
  | .webhook => 161
  | .shared => 150
  | .commitment => 96

theorem MessageKind.length_inj {k k' : MessageKind} (h : k.length = k'.length) : k = k' := by
  cases k <;> cases k' <;> first | rfl | cases h

theorem canonicalPreimage_ok {domain : SigningDomain} {bodyHash : Bytes32} :
    canonicalPreimage host domain bodyHash = .ok bytes ↔ domain.version = envelopeVersion ∧
      domainTag ++ beBytes 4 domain.version ++ bytes32 domain.networkId ++
        bytes32 (host.sha256 (host.addressXdr domain.contract)) ++
        bytes32 (host.sha256 (host.symbolXdr domain.messageType.tag)) ++ bytes32 bodyHash = bytes := by
  simp only [canonicalPreimage, checkVersion, bind_eq_ok, exists_unit, refuseIf_eq_ok, not_not,
    pure_eq_ok, ne_eq]

theorem commitmentPreimage_ok {kind : IdentifierKind} {saltVersion : Nat}
    {institutionSalt identifier : List Byte} :
    commitmentPreimage host kind saltVersion institutionSalt identifier = .ok bytes ↔
      (saltVersion ≠ 0 ∧ institutionSalt.length = saltLen ∧ (¬ ∀ byte ∈ institutionSalt, byte = 0) ∧
        identifier ≠ []) ∧
      commitmentTag ++ beBytes 4 kind.tag ++ beBytes 4 saltVersion ++ institutionSalt ++
        bytes32 (host.sha256 identifier) = bytes := by
  simp only [commitmentPreimage, validateSalt, bind_eq_ok, exists_unit, refuseIf_eq_ok, not_not,
    pure_eq_ok, ne_eq]
  tauto

theorem length_preimage (h : m.preimage host = some bytes) : bytes.length = m.kind.length := by
  cases m with
  | webhook envelope payloadHash =>
    cases h
    simp [ScholarshipOutbox.canonicalPreimage, Message.kind, MessageKind.length]
  | shared domain bodyHash =>
    obtain ⟨_, rfl⟩ := canonicalPreimage_ok.mp (toOption_eq_some.mp h)
    simp [Message.kind, MessageKind.length]
  | commitment kind saltVersion institutionSalt identifier =>
    obtain ⟨⟨_, hsalt, _⟩, rfl⟩ := commitmentPreimage_ok.mp (toOption_eq_some.mp h)
    simp [Message.kind, MessageKind.length, hsalt, saltLen]

end Lengths

section Fields

variable {host : Host} {m m' : Message} {bytes : List Byte}

theorem MessageType.tag_inj {t t' : MessageType} (h : t.tag = t'.tag) : t = t' := by
  cases t <;> cases t' <;> first | rfl | simp [MessageType.tag] at h

theorem IdentifierKind.tag_inj {k k' : IdentifierKind} (h : k.tag = k'.tag) : k = k' := by
  cases k <;> cases k' <;> first | rfl | cases h

theorem IdentifierKind.tag_lt (k : IdentifierKind) : k.tag < 2^32 := by
  cases k <;> decide

/-- Digests that the messages have in them stand for what was hashed. -/
theorem Separates.hash_inj (h : Separates host m m') {p q : List Byte} (hp : p ∈ m.hashed host)
    (hq : q ∈ m'.hashed host) (hsame : bytes32 (host.sha256 p) = bytes32 (host.sha256 q)) : p = q :=
  h.hashes p (List.mem_append_left _ hp) q (List.mem_append_right _ hq) (bytes32_inj hsame)

theorem webhook_inj {envelope envelope' : ScholarshipOutbox.WebhookEnvelope}
    {payloadHash payloadHash' : Bytes32} (hm : (Message.webhook envelope payloadHash).Fits)
    (hm' : (Message.webhook envelope' payloadHash').Fits)
    (hseparates : Separates host (.webhook envelope payloadHash) (.webhook envelope' payloadHash'))
    (h : (Message.webhook envelope payloadHash).preimage host =
      (Message.webhook envelope' payloadHash').preimage host) :
    envelope = envelope' ∧ payloadHash = payloadHash' := by
  obtain ⟨hversion, hendpoint, hepoch, hevent, hsequence, hexpires⟩ := hm
  obtain ⟨hversion', hendpoint', hepoch', hevent', hsequence', hexpires'⟩ := hm'
  rw [Message.preimage, Message.preimage, Option.some.injEq] at h
  -- The fields are taken off the end, each of a fixed length.
  obtain ⟨h, hpayloadSame⟩ := List.append_inj' h (by simp)
  obtain ⟨h, hexpiresSame⟩ := List.append_inj' h (by simp)
  obtain ⟨h, hsequenceSame⟩ := List.append_inj' h (by simp)
  obtain ⟨h, heventSame⟩ := List.append_inj' h (by simp)
  obtain ⟨h, hepochSame⟩ := List.append_inj' h (by simp)
  obtain ⟨h, hendpointSame⟩ := List.append_inj' h (by simp)
  obtain ⟨h, hcontractSame⟩ := List.append_inj' h (by simp)
  obtain ⟨h, hnetworkSame⟩ := List.append_inj' h (by simp)
  obtain ⟨_, hversionSame⟩ := List.append_inj' h (by simp)
  have hcontract : envelope.contract = envelope'.contract := by
    apply hseparates.addresses _ rfl _ rfl
    exact hseparates.hash_inj (List.mem_singleton_self _) (List.mem_singleton_self _) hcontractSame
  refine ⟨?_, bytes32_inj hpayloadSame⟩
  cases envelope
  cases envelope'
  simp only [ScholarshipOutbox.WebhookEnvelope.mk.injEq]
  exact ⟨beBytes_inj hversion hversion' hversionSame, bytes32_inj hnetworkSame, hcontract,
    beBytes_inj hendpoint hendpoint' hendpointSame, beBytes_inj hepoch hepoch' hepochSame,
    beBytes_inj hevent hevent' heventSame, beBytes_inj hsequence hsequence' hsequenceSame,
    beBytes_inj hexpires hexpires' hexpiresSame⟩

theorem shared_inj {domain domain' : SigningDomain} {bodyHash bodyHash' : Bytes32}
    (hseparates : Separates host (.shared domain bodyHash) (.shared domain' bodyHash'))
    (h : canonicalPreimage host domain bodyHash = .ok bytes)
    (h' : canonicalPreimage host domain' bodyHash' = .ok bytes) :
    domain = domain' ∧ bodyHash = bodyHash' := by
  obtain ⟨hversion, hbytes⟩ := canonicalPreimage_ok.mp h
  obtain ⟨hversion', hbytes'⟩ := canonicalPreimage_ok.mp h'
  rw [← hbytes'] at hbytes
  obtain ⟨hbytes, hbodySame⟩ := List.append_inj' hbytes (by simp)
  obtain ⟨hbytes, htypeSame⟩ := List.append_inj' hbytes (by simp)
  obtain ⟨hbytes, hcontractSame⟩ := List.append_inj' hbytes (by simp)
  obtain ⟨_, hnetworkSame⟩ := List.append_inj' hbytes (by simp)
  have hcontract : domain.contract = domain'.contract := by
    apply hseparates.addresses _ rfl _ rfl
    exact hseparates.hash_inj (by simp [Message.hashed]) (by simp [Message.hashed]) hcontractSame
  have htype : domain.messageType = domain'.messageType := by
    apply MessageType.tag_inj
    apply hseparates.symbols _ rfl _ rfl
    exact hseparates.hash_inj (by simp [Message.hashed]) (by simp [Message.hashed]) htypeSame
  refine ⟨?_, bytes32_inj hbodySame⟩
  cases domain
  cases domain'
  simp only [SigningDomain.mk.injEq]
  exact ⟨hversion.trans hversion'.symm, bytes32_inj hnetworkSame, hcontract, htype⟩

theorem commitment_inj {kind kind' : IdentifierKind} {saltVersion saltVersion' : Nat}
    {salt salt' identifier identifier' : List Byte} (hm : saltVersion < 2^32)
    (hm' : saltVersion' < 2^32)
    (hseparates : Separates host (.commitment kind saltVersion salt identifier)
      (.commitment kind' saltVersion' salt' identifier'))
    (h : commitmentPreimage host kind saltVersion salt identifier = .ok bytes)
    (h' : commitmentPreimage host kind' saltVersion' salt' identifier' = .ok bytes) :
    kind = kind' ∧ saltVersion = saltVersion' ∧ salt = salt' ∧ identifier = identifier' := by
  obtain ⟨⟨_, hsalt, _⟩, hbytes⟩ := commitmentPreimage_ok.mp h
  obtain ⟨⟨_, hsalt', _⟩, hbytes'⟩ := commitmentPreimage_ok.mp h'
  rw [← hbytes'] at hbytes
  obtain ⟨hbytes, hidentifierSame⟩ := List.append_inj' hbytes (by simp)
  obtain ⟨hbytes, hsaltSame⟩ := List.append_inj' hbytes (hsalt.trans hsalt'.symm)
  obtain ⟨hbytes, hversionSame⟩ := List.append_inj' hbytes (by simp)
  obtain ⟨_, hkindSame⟩ := List.append_inj' hbytes (by simp)
  refine ⟨?_, beBytes_inj hm hm' hversionSame, hsaltSame, ?_⟩
  · exact IdentifierKind.tag_inj (beBytes_inj kind.tag_lt kind'.tag_lt hkindSame)
  · exact hseparates.hash_inj (List.mem_singleton_self _) (List.mem_singleton_self _)
      hidentifierSame

/-- Well-formed messages with the same bytes are of one kind, and they are the same message unless the
host confuses what they have in them. -/
theorem preimage_eq_iff (hm : m.Fits) (hm' : m'.Fits) (hformed : m.preimage host ≠ none) :
    (m.preimage host = m'.preimage host → m.kind = m'.kind) ∧
      (Separates host m m' → (m.preimage host = m'.preimage host ↔ m = m')) := by
  obtain ⟨bytes, hbytes⟩ := Option.ne_none_iff_exists'.mp hformed
  have hkind : m.preimage host = m'.preimage host → m.kind = m'.kind := by
    intro hsame
    apply MessageKind.length_inj
    rw [← length_preimage hbytes, ← length_preimage (hsame.symm.trans hbytes)]
  refine ⟨hkind, fun hseparates => ⟨fun hsame => ?_, fun heq => by rw [heq]⟩⟩
  have hkinds := hkind hsame
  have hbytes' := hsame.symm.trans hbytes
  cases m <;> cases m' <;> try cases hkinds
  case webhook.webhook =>
    obtain ⟨rfl, rfl⟩ := webhook_inj hm hm' hseparates hsame
    rfl
  case shared.shared =>
    obtain ⟨rfl, rfl⟩ := shared_inj hseparates (toOption_eq_some.mp hbytes)
      (toOption_eq_some.mp hbytes')
    rfl
  case commitment.commitment =>
    obtain ⟨rfl, rfl, rfl, rfl⟩ := commitment_inj hm hm' hseparates (toOption_eq_some.mp hbytes)
      (toOption_eq_some.mp hbytes')
    rfl

end Fields

section Samples

/-- The XDR encodings of a contract and of the symbols of a length divisible by four. -/
def sampleHost : Host where
  sha256 p :=
    if p = [0, 0, 0, 18, 0, 0, 0, 1] ++ beBytes 32 0 then
      0x5979b0b6c05299c628c161df5240d571c2f010bbb195dd4346bc3b262441744b
    else if p = [0, 0, 0, 15, 0, 0, 0, 12] ++ asciiBytes "issuer_offer" then
      0xfa56e9569b107b31a02e9b322737b89bb1790c83c82a4ee497afccf08320bddd
    else if p = [0, 0, 0, 15, 0, 0, 0, 16] ++ asciiBytes "membership_claim" then
      0x1a5e914c31e7fa22870e1dc0cb99ad0ce2dacbb4510bc516efa6c3cb79991ecb
    else 0
  addressXdr a := [0, 0, 0, 18, 0, 0, 0, 1] ++ beBytes 32 a.key
  symbolXdr symbol := [0, 0, 0, 15] ++ beBytes 4 symbol.length ++ asciiBytes symbol

/-- Messages of two types on one domain are signed apart. -/
theorem preimage_eq_sample :
    (Message.shared ⟨1, 6, ⟨0⟩, .issuerOffer⟩ 7).preimage sampleHost ≠
      (Message.shared ⟨1, 6, ⟨0⟩, .membershipClaim⟩ 7).preimage sampleHost := by
  have hseparates : Separates sampleHost (.shared ⟨1, 6, ⟨0⟩, .issuerOffer⟩ 7)
      (.shared ⟨1, 6, ⟨0⟩, .membershipClaim⟩ 7) := by
    refine ⟨?_, ?_, by decide +kernel⟩
    · rintro a ⟨⟩ b ⟨⟩ _
      rfl
    · rintro x ⟨⟩ y ⟨⟩ hsame
      exact absurd hsame (by decide +kernel)
  intro hsame
  have hfits : ∀ messageType, (Message.shared ⟨1, 6, ⟨0⟩, messageType⟩ 7).Fits := by
    intro messageType
    exact show 1 < 2^32 by decide
  have heq := ((preimage_eq_iff (hfits _) (hfits _) (Option.some_ne_none _)).2 hseparates).mp hsame
  exact absurd heq (by decide)

end Samples

end ChainVerse.Signing
