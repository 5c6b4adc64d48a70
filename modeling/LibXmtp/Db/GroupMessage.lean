import LibXmtp.Data.Hex
import LibXmtp.Data.HashMap
import LibXmtp.Data.Table
import LibXmtp.Db.Group
import Mathlib.Data.Int.Order.Basic

namespace LibXmtp.Db

open LibXmtp.Data

inductive GroupMessageKind
  | application
  | membershipChange
  deriving DecidableEq

def GroupMessageKind.isDeletable : GroupMessageKind → Bool
  | .application => true
  | .membershipChange => false

inductive ContentType
  | unknown
  | text
  | groupMembershipChange
  | groupUpdated
  | reaction
  | readReceipt
  | reply
  | attachment
  | remoteAttachment
  | transactionReference
  | walletSendCalls
  | leaveRequest
  | markdown
  | actions
  | intent
  | multiRemoteAttachment
  | deleteMessage
  deriving DecidableEq

def ContentType.isDeletable : ContentType → Bool
  | .groupMembershipChange | .groupUpdated | .leaveRequest | .reaction | .readReceipt | .actions
  | .intent | .deleteMessage | .unknown => false
  | .text | .markdown | .reply | .attachment | .remoteAttachment | .transactionReference
  | .multiRemoteAttachment | .walletSendCalls => true

structure StoredGroupMessage where
  id : Bytes
  groupId : Bytes
  decryptedMessageBytes : Bytes
  sentAtNs : Int
  kind : GroupMessageKind
  senderInboxId : String
  contentType : ContentType
  referenceId : Option Bytes := none
  deriving DecidableEq

structure StoredMessageDeletion where
  id : Bytes
  groupId : Bytes
  deletedMessageId : Bytes
  deletedByInboxId : String
  isSuperAdminDeletion : Bool
  deletedAtNs : Int

structure MessageDb where
  messages : Table StoredGroupMessage.id
  deletions : Table StoredMessageDeletion.id
  groups : GroupTable := .empty

namespace MessageDb

def empty : MessageDb := { messages := .empty, deletions := .empty }

variable (db : MessageDb)

def storeMessage (message : StoredGroupMessage) : MessageDb :=
  { db with messages := db.messages.insertOrIgnore message }

def storeDeletion (deletion : StoredMessageDeletion) : MessageDb :=
  { db with deletions := db.deletions.insertOrIgnore deletion }

def getGroupMessage (id : Bytes) : Option StoredGroupMessage := db.messages.fetch id

def getDeletionsForMessages (messageIds : List Bytes) : List StoredMessageDeletion :=
  db.deletions.rows.filter fun deletion => deletion.deletedMessageId ∈ messageIds

/-- The group itself and, if it is of a direct message, every other group of the same one. -/
def groupIdFilter (groupId id : Bytes) : Bool :=
  db.groups.rows.any fun group => group.id = id &&
    (group.id = groupId || group.dmId.any fun dmId =>
      db.groups.rows.any fun asked => asked.id = groupId && asked.dmId = some dmId)

def getInboundRelations (groupId : Bytes) (messageIds : List Bytes) (contentType : ContentType) :
    HashMap Bytes (List StoredGroupMessage) :=
  let query (message : StoredGroupMessage) : Bool :=
    db.groupIdFilter groupId message.groupId && message.referenceId.any (· ∈ messageIds) &&
      message.contentType = contentType
  (db.messages.select StoredGroupMessage.sentAtNs query).foldl (fun relations message =>
    match message.referenceId with
    | some id => relations.insert id ((relations.get id).getD [] ++ [message])
    | none => relations) .empty

def getInboundRelationCounts (groupId : Bytes) (messageIds : List Bytes)
    (contentType : ContentType) : HashMap Bytes Nat :=
  .ofList ((db.getInboundRelations groupId messageIds contentType).entries.map fun (id, messages) =>
    (id, messages.length))

def getOutboundRelations (groupId : Bytes) (referenceIds : List Bytes) :
    HashMap Bytes StoredGroupMessage :=
  .ofList ((db.messages.rows.filter fun message =>
    db.groupIdFilter groupId message.groupId && message.id ∈ referenceIds).map fun message =>
      (message.id, message))

end MessageDb

end LibXmtp.Db
