import LibXmtp.Associations.Member

namespace LibXmtp.Associations

open LibXmtp.Data

structure UnsignedCreateInbox where
  nonce : UInt64
  accountIdentifier : Identifier

structure UnsignedAddAssociation where
  newMemberIdentifier : MemberIdentifier

structure UnsignedRevokeAssociation where
  revokedMember : MemberIdentifier

structure UnsignedChangeRecoveryAddress where
  newRecoveryIdentifier : Identifier

inductive UnsignedAction
  | createInbox (action : UnsignedCreateInbox)
  | addAssociation (action : UnsignedAddAssociation)
  | revokeAssociation (action : UnsignedRevokeAssociation)
  | changeRecoveryAddress (action : UnsignedChangeRecoveryAddress)

structure UnsignedIdentityUpdate where
  inboxId : String
  clientTimestampNs : UInt64
  actions : List UnsignedAction

/-- What is used of the `chrono` crate: a time in nanoseconds as RFC 3339 text with seconds,
which is one line. -/
structure Chrono where
  rfc3339Secs : Int64 → String
  single_line : ∀ t, '\n' ∉ (rfc3339Secs t).toList

def header : String := "XMTP : Authenticate to inbox"

def footer : String := "For more info: https://xmtp.org/signatures"

def getIdentifierText : MemberKind → String
  | .ethereum => "Address"
  | .installation => "ID"
  | .passkey => "Passkey"

def prettyTimestamp (chrono : Chrono) (nsDate : UInt64) : String :=
  chrono.rfc3339Secs nsDate.toInt64

section SignatureText

variable (crates : Crates)

def UnsignedCreateInbox.signatureText (a : UnsignedCreateInbox) : String :=
  "- Create inbox\n  (Owner: " ++ a.accountIdentifier.toMember.display crates ++ ")"

def UnsignedAddAssociation.prefixText : MemberKind → String
  | .installation => "Grant messaging access to app"
  | .ethereum => "Link address to inbox"
  | .passkey => "Link passkey to inbox"

def UnsignedAddAssociation.signatureText (a : UnsignedAddAssociation) : String :=
  let memberKind := a.newMemberIdentifier.kind
  "- " ++ prefixText memberKind ++ "\n  (" ++ getIdentifierText memberKind ++ ": " ++
    a.newMemberIdentifier.display crates ++ ")"

def UnsignedRevokeAssociation.prefixText : MemberKind → String
  | .installation => "Revoke messaging access from app"
  | .ethereum => "Unlink address from inbox"
  | .passkey => "Unlink passkey from inbox"

def UnsignedRevokeAssociation.signatureText (a : UnsignedRevokeAssociation) : String :=
  let memberKind := a.revokedMember.kind
  "- " ++ prefixText memberKind ++ "\n  (" ++ getIdentifierText memberKind ++ ": " ++
    a.revokedMember.display crates ++ ")"

def UnsignedChangeRecoveryAddress.signatureText (a : UnsignedChangeRecoveryAddress) : String :=
  "- Change inbox recovery address\n  (Address: " ++
    a.newRecoveryIdentifier.toMember.display crates ++ ")"

def UnsignedAction.signatureText : UnsignedAction → String
  | .createInbox action => action.signatureText crates
  | .addAssociation action => action.signatureText crates
  | .revokeAssociation action => action.signatureText crates
  | .changeRecoveryAddress action => action.signatureText crates

def UnsignedIdentityUpdate.signatureText (chrono : Chrono) (u : UnsignedIdentityUpdate) : String :=
  let allSignatures := u.actions.map fun action => action.signatureText crates
  header ++ "\n\nInbox ID: " ++ u.inboxId ++ "\nCurrent time: " ++
    prettyTimestamp chrono u.clientTimestampNs ++ "\n\n" ++ "\n".intercalate allSignatures ++
    "\n\n" ++ footer

end SignatureText

namespace Sample

def chrono : Chrono := ⟨fun _ => "1970-01-01T00:00:00Z", fun _ => by decide⟩

end Sample

end LibXmtp.Associations
