import LibXmtp.Db.GroupMessage

/-! The messages of a group as they are shown: with their reactions and replies, and a placeholder
for the ones that are deleted. -/

namespace LibXmtp.Messages

open LibXmtp.Data LibXmtp.Db

structure ContentTypeId where
  authorityId : String
  typeId : String
  versionMajor : Nat
  versionMinor : Nat

def deletedMessageContentType : ContentTypeId := ⟨"xmtp.org", "deletedMessage", 1, 0⟩

inductive DeletedBy
  | sender
  | admin (inboxId : String)

inductive Content (β : Type)
  | reply (referenceId : String) (content : β)
  | other (content : β)

inductive MessageBody (β : Type)
  | content (content : Content β)
  | deletedMessage (deletedBy : DeletedBy)

def MessageBody.isDeleted {β : Type} : MessageBody β → Bool
  | .content _ => false
  | .deletedMessage _ => true

structure DecodedMessage (β : Type) where
  id : Bytes
  contentType : ContentTypeId
  body : MessageBody β

structure EnrichedMessage (β : Type) extends DecodedMessage β where
  inReplyTo : Option (DecodedMessage β)
  reactions : List (DecodedMessage β)
  numReplies : Nat

structure MessageCodec (β : Type) where
  decodeContent : Bytes → Option (ContentTypeId × Content β)
  decodeEncodedContent : Bytes → Option Bytes
  decodeDeleteMessage : Bytes → Option String
  hex : Hex

variable {β : Type} (codec : MessageCodec β)

def DecodedMessage.tryFrom (message : StoredGroupMessage) : Option (DecodedMessage β) :=
  (codec.decodeContent message.decryptedMessageBytes).map fun (contentType, content) =>
    ⟨message.id, contentType, .content content⟩

def isDeletionValid (deletion : StoredMessageDeletion) (message : StoredGroupMessage)
    (groupId : Bytes) : Bool :=
  if deletion.deletedMessageId ≠ message.id then false
  else if deletion.groupId ≠ groupId ∨ message.groupId ≠ groupId then false
  else if !message.kind.isDeletable || !message.contentType.isDeletable then false
  else deletion.deletedByInboxId = message.senderInboxId || deletion.isSuperAdminDeletion

def deletedBy (deletion : StoredMessageDeletion) (message : StoredGroupMessage) : DeletedBy :=
  if deletion.deletedByInboxId = message.senderInboxId then .sender
  else .admin deletion.deletedByInboxId

structure Relations (β : Type) where
  reactions : HashMap Bytes (List (DecodedMessage β))
  referencedMessages : HashMap Bytes (StoredGroupMessage × DecodedMessage β)
  replyCounts : HashMap Bytes Nat
  deletions : HashMap Bytes StoredMessageDeletion

def getReferencedMessages (messages : HashMap Bytes StoredGroupMessage) :
    HashMap Bytes (StoredGroupMessage × DecodedMessage β) :=
  .ofList (messages.entries.filterMap fun (id, message) =>
    (DecodedMessage.tryFrom codec message).map fun decoded => (id, message, decoded))

def getReactions (messages : HashMap Bytes (List StoredGroupMessage)) :
    HashMap Bytes (List (DecodedMessage β)) :=
  .ofList (messages.entries.map fun (id, messages) =>
    (id, messages.filterMap (DecodedMessage.tryFrom codec)))

def getDeletions (deletions : List StoredMessageDeletion) : HashMap Bytes StoredMessageDeletion :=
  .ofList (deletions.map fun deletion => (deletion.deletedMessageId, deletion))

def getRelations (db : MessageDb) (groupId : Bytes) (messageIds referenceIds : List Bytes) :
    Relations β :=
  if messageIds.isEmpty then ⟨.empty, .empty, .empty, .empty⟩
  else {
    reactions := getReactions codec (db.getInboundRelations groupId messageIds .reaction)
    referencedMessages :=
      getReferencedMessages codec (db.getOutboundRelations groupId referenceIds)
    replyCounts := db.getInboundRelationCounts groupId messageIds .reply
    deletions := getDeletions (db.getDeletionsForMessages (messageIds ++ referenceIds)) }

def inReplyTo (relations : Relations β) (groupId id : Bytes) : Option (DecodedMessage β) := do
  let (stored, decoded) ← relations.referencedMessages.get id
  match relations.deletions.get id with
  | some deletion =>
    if isDeletionValid deletion stored groupId then
      return { decoded with body := .deletedMessage (deletedBy deletion stored) }
    else return decoded
  | none => return decoded

def enrichMessage (relations : Relations β) (groupId : Bytes) (stored : StoredGroupMessage)
    (decoded : DecodedMessage β) : EnrichedMessage β :=
  match (relations.deletions.get decoded.id).filter (isDeletionValid · stored groupId) with
  | some deletion =>
    { decoded with
      body := .deletedMessage (deletedBy deletion stored)
      contentType := deletedMessageContentType
      inReplyTo := none
      reactions := []
      numReplies := 0 }
  | none =>
    { decoded with
      inReplyTo :=
        match decoded.body with
        | .content (.reply referenceId _) =>
          (codec.hex.decode referenceId).bind (inReplyTo relations groupId)
        | _ => none
      reactions := (relations.reactions.get decoded.id).getD []
      numReplies := (relations.replyCounts.get decoded.id).getD 0 }

def enrichAll (groupId : Bytes) : Relations β → List StoredGroupMessage → List (EnrichedMessage β)
  | _, [] => []
  | relations, stored :: messages =>
    match DecodedMessage.tryFrom codec stored with
    | none => enrichAll groupId relations messages
    | some decoded =>
      let enriched := enrichMessage codec relations groupId stored decoded
      let reactions :=
        if enriched.body.isDeleted then relations.reactions
        else relations.reactions.remove decoded.id
      enriched :: enrichAll groupId { relations with reactions } messages

def enrichMessages (db : MessageDb) (groupId : Bytes) (messages : List StoredGroupMessage) :
    List (EnrichedMessage β) :=
  let messageIds := messages.map StoredGroupMessage.id
  let referenceIds := messages.filterMap StoredGroupMessage.referenceId
  enrichAll codec groupId (getRelations codec db groupId messageIds referenceIds) messages

theorem get_getDeletions (deletions : List StoredMessageDeletion) (id : Bytes) :
    (getDeletions deletions).get id =
      (deletions.filter fun deletion => deletion.deletedMessageId = id).getLast? := by
  rw [getDeletions, HashMap.get_ofList, List.filter_map, List.getLast?_map, Option.map_map]
  have hkey : ((fun e : Bytes × StoredMessageDeletion => e.1 == id) ∘ fun deletion =>
      (deletion.deletedMessageId, deletion)) = fun deletion => decide (deletion.deletedMessageId = id) := by
    funext deletion
    exact Bool.eq_iff_iff.mpr (by simp)
  rw [hkey]
  exact Option.map_id'

end LibXmtp.Messages
