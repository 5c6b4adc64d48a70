import LibXmtp.Messages.DeletionOrder

/-! The deletions of messages in the duplicate groups of a direct message, which are shown as one
conversation. -/

namespace LibXmtp.Messages

open LibXmtp.Data LibXmtp.Db

variable {β : Type}

/-- What the filters, the order and the limit of a query leave of the messages of a conversation. -/
structure MsgQueryArgs where
  select : List StoredGroupMessage → List StoredGroupMessage
  select_subset : ∀ messages, select messages ⊆ messages

def MsgQueryArgs.all : MsgQueryArgs := ⟨id, fun _ => List.Subset.refl _⟩

def getGroupMessages (db : MessageDb) (groupId : Bytes) (args : MsgQueryArgs) :
    List StoredGroupMessage :=
  args.select (db.messages.rows.filter fun message => db.groupIdFilter groupId message.groupId)

def findEnrichedMessages (codec : MessageCodec β) (db : MessageDb) (groupId : Bytes)
    (args : MsgQueryArgs) : List (EnrichedMessage β) :=
  enrichMessages codec db groupId (getGroupMessages db groupId args)

def stitched (db : MessageDb) (dmId : String) : List Bytes :=
  (db.groups.rows.filter fun group => group.dmId = some dmId).map StoredGroup.id

def Listed (codec : MessageCodec β) (db : MessageDb) (groupId id : Bytes) (deleted : Bool) : Prop :=
  ∃ args, ∃ shown ∈ findEnrichedMessages codec db groupId args,
    shown.id = id ∧ shown.body.isDeleted = deleted

def RepliedTo (codec : MessageCodec β) (db : MessageDb) (groupId id : Bytes) (deleted : Bool) :
    Prop :=
  ∃ args, ∃ shown ∈ findEnrichedMessages codec db groupId args, ∃ original,
    shown.inReplyTo = some original ∧ original.id = id ∧ original.body.isDeleted = deleted

/-- Whichever of the groups is asked, its own one included, a message has the same verdict. -/
structure VerdictsAgree (codec : MessageCodec β) (db : MessageDb) (dmId : String) (id : Bytes) :
    Prop where
  listed : ∀ g ∈ stitched db dmId, ∀ g' ∈ stitched db dmId, ∀ deleted deleted',
    Listed codec db g id deleted → Listed codec db g' id deleted' → deleted = deleted'
  replied : ∀ g ∈ stitched db dmId, ∀ g' ∈ stitched db dmId, ∀ deleted deleted',
    RepliedTo codec db g id deleted → RepliedTo codec db g' id deleted' → deleted = deleted'

variable {codec : MessageCodec β} {db : MessageDb} {dmId : String} {g : Bytes}
  {m : StoredGroupMessage}

theorem groupIdFilter_of_mem_stitched {id : Bytes} (hg : g ∈ stitched db dmId)
    (hid : id ∈ stitched db dmId) : db.groupIdFilter g id = true := by
  obtain ⟨asked, hasked, rfl⟩ := List.mem_map.mp hg
  obtain ⟨group, hgroup, rfl⟩ := List.mem_map.mp hid
  obtain ⟨hasked, haskedDm⟩ := List.mem_filter.mp hasked
  obtain ⟨hgroup, hgroupDm⟩ := List.mem_filter.mp hgroup
  rw [MessageDb.groupIdFilter, List.any_eq_true]
  refine ⟨group, hgroup, ?_⟩
  rw [of_decide_eq_true hgroupDm]
  simp only [decide_true, Bool.true_and, Bool.or_eq_true, Option.any_some, List.any_eq_true]
  refine .inr ⟨asked, hasked, ?_⟩
  rw [of_decide_eq_true haskedDm]
  simp

def verdict (db : MessageDb) (groupId : Bytes) (m : StoredGroupMessage) : Bool :=
  ((deletionsOf db m.id).getLast?.filter (isDeletionValid · m groupId)).isSome

theorem verdict_of_ne (h : m.groupId ≠ g) : verdict db g m = false := by
  have hinvalid (deletion : StoredMessageDeletion) : isDeletionValid deletion m g = false := by
    rw [isDeletionValid]
    split
    · rfl
    · rw [if_pos (.inr h)]
  rw [verdict]
  cases (deletionsOf db m.id).getLast? with
  | none => rfl
  | some deletion => rw [Option.filter_some, hinvalid]; rfl

theorem stored_of_mem_getGroupMessages {args : MsgQueryArgs} {message : StoredGroupMessage}
    (h : message ∈ getGroupMessages db g args) : message ∈ db.messages.rows :=
  List.mem_of_mem_filter (args.select_subset _ h)

theorem listed_iff (hm : m ∈ db.messages.rows) (hfilter : db.groupIdFilter g m.groupId = true)
    {deleted : Bool} : Listed codec db g m.id deleted ↔
      (codec.decodeContent m.decryptedMessageBytes).isSome ∧ verdict db g m = deleted := by
  have hverdict : ∀ {args : MsgQueryArgs}, ∀ shown ∈ findEnrichedMessages codec db g args,
      shown.id = m.id → (codec.decodeContent m.decryptedMessageBytes).isSome ∧
        shown.body.isDeleted = verdict db g m := by
    intro args shown hshown hid
    obtain ⟨stored, hstored, hid', hdecode, hdeleted⟩ := mem_enrichAll hshown
    have hne : (getGroupMessages db g args).map StoredGroupMessage.id ≠ [] :=
      List.ne_nil_of_mem (List.mem_map_of_mem hstored)
    rw [get_deletions_getRelations hne
      (List.mem_append_left _ (List.mem_map_of_mem hstored))] at hdeleted
    cases db.messages.eq_of_key_eq (stored_of_mem_getGroupMessages hstored) hm
      (hid'.symm.trans hid)
    exact ⟨hdecode, hdeleted⟩
  constructor
  · rintro ⟨args, shown, hshown, hid, rfl⟩
    obtain ⟨hdecode, hdeleted⟩ := hverdict shown hshown hid
    exact ⟨hdecode, hdeleted.symm⟩
  · rintro ⟨hdecode, rfl⟩
    have hmem : m ∈ getGroupMessages db g .all := List.mem_filter.mpr ⟨hm, hfilter⟩
    obtain ⟨shown, hshown, hid⟩ := exists_mem_enrichAll hmem hdecode
    exact ⟨.all, shown, hshown, hid, (hverdict shown hshown hid).2⟩

theorem exists_inReplyTo {relations : Relations β} {messages : List StoredGroupMessage}
    {shown : EnrichedMessage β} {original : DecodedMessage β}
    (h : shown ∈ enrichAll codec g relations messages) (hreply : shown.inReplyTo = some original) :
    ∃ id, inReplyTo relations g id = some original := by
  induction messages generalizing relations with
  | nil => cases h
  | cons stored messages ih =>
    rw [enrichAll] at h
    cases hdecode : DecodedMessage.tryFrom codec stored with
    | none =>
      rw [hdecode] at h
      exact ih h
    | some decoded =>
      rw [hdecode] at h
      rcases List.mem_cons.mp h with rfl | h
      · rw [enrichMessage] at hreply
        split at hreply
        · cases hreply
        · dsimp only at hreply
          split at hreply
          · obtain ⟨id, -, hid⟩ := Option.bind_eq_some_iff.mp hreply
            exact ⟨id, hid⟩
          · cases hreply
      · obtain ⟨id, hid⟩ := ih h
        exact ⟨id, hid⟩

theorem getReferencedMessages_eq_some {messages : HashMap Bytes StoredGroupMessage} {id : Bytes}
    {stored : StoredGroupMessage} {decoded : DecodedMessage β}
    (h : (getReferencedMessages codec messages).get id = some (stored, decoded)) :
    messages.get id = some stored ∧ DecodedMessage.tryFrom codec stored = some decoded := by
  rw [getReferencedMessages, HashMap.get_ofList, Option.map_eq_some_iff] at h
  obtain ⟨e, hlast, heq⟩ := h
  obtain ⟨he, hid⟩ := List.mem_filter.mp (List.mem_of_getLast? hlast)
  obtain ⟨⟨id', message⟩, hmessage, hdecode⟩ := List.mem_filterMap.mp he
  obtain ⟨decoded', hdecoded, rfl⟩ := Option.map_eq_some_iff.mp hdecode
  cases heq
  cases eq_of_beq hid
  exact ⟨HashMap.get_eq_some_iff.mpr hmessage, hdecoded⟩

theorem getOutboundRelations_eq_some {referenceIds : List Bytes} {id : Bytes}
    {stored : StoredGroupMessage} (h : (db.getOutboundRelations g referenceIds).get id = some stored) :
    stored ∈ db.messages.rows ∧ stored.id = id ∧ id ∈ referenceIds := by
  rw [MessageDb.getOutboundRelations, HashMap.get_ofList, Option.map_eq_some_iff] at h
  obtain ⟨e, hlast, rfl⟩ := h
  obtain ⟨he, hid⟩ := List.mem_filter.mp (List.mem_of_getLast? hlast)
  obtain ⟨message, hmessage, rfl⟩ := List.mem_map.mp he
  cases eq_of_beq hid
  obtain ⟨hrow, hquery⟩ := List.mem_filter.mp hmessage
  exact ⟨hrow, rfl, of_decide_eq_true (Bool.and_eq_true_iff.mp hquery).2⟩

theorem inReplyTo_eq_some {messageIds referenceIds : List Bytes} {id : Bytes}
    {original : DecodedMessage β}
    (h : inReplyTo (getRelations codec db g messageIds referenceIds) g id = some original) :
    ∃ stored ∈ db.messages.rows, original.id = stored.id ∧
      (codec.decodeContent stored.decryptedMessageBytes).isSome ∧
        original.body.isDeleted = verdict db g stored := by
  have hne : messageIds ≠ [] := by
    rintro rfl
    cases h
  obtain ⟨⟨stored, decoded⟩, hreferenced, h⟩ := Option.bind_eq_some_iff.mp h
  have hreferences : (getRelations codec db g messageIds referenceIds).referencedMessages =
      getReferencedMessages codec (db.getOutboundRelations g referenceIds) := by
    rw [getRelations, if_neg (by rw [List.isEmpty_iff]; exact hne)]
  rw [hreferences] at hreferenced
  obtain ⟨hget, hdecode⟩ := getReferencedMessages_eq_some hreferenced
  obtain ⟨hstored, rfl, hid⟩ := getOutboundRelations_eq_some hget
  rw [get_deletions_getRelations hne (List.mem_append_right _ hid)] at h
  obtain ⟨⟨contentType, content⟩, hcontent, rfl⟩ := Option.map_eq_some_iff.mp hdecode
  refine ⟨stored, hstored, ?_⟩
  rw [verdict, hcontent]
  cases hlast : (deletionsOf db stored.id).getLast? with
  | none =>
    rw [hlast] at h
    cases h
    exact ⟨rfl, rfl, rfl⟩
  | some deletion =>
    rw [hlast] at h
    cases hvalid : isDeletionValid deletion stored g with
    | true =>
      simp only [hvalid, if_true] at h
      cases h
      refine ⟨rfl, rfl, ?_⟩
      rw [Option.filter_some, hvalid]
      rfl
    | false =>
      simp only [hvalid, Bool.false_eq_true, if_false] at h
      cases h
      refine ⟨rfl, rfl, ?_⟩
      rw [Option.filter_some, hvalid]
      rfl

theorem verdict_of_repliedTo (hm : m ∈ db.messages.rows) {deleted : Bool}
    (h : RepliedTo codec db g m.id deleted) :
    (codec.decodeContent m.decryptedMessageBytes).isSome ∧ verdict db g m = deleted := by
  obtain ⟨args, shown, hshown, original, hreply, hid, rfl⟩ := h
  obtain ⟨id, hinReplyTo⟩ := exists_inReplyTo hshown hreply
  obtain ⟨stored, hstored, hid', hdecode, hdeleted⟩ := inReplyTo_eq_some hinReplyTo
  cases db.messages.eq_of_key_eq hstored hm (hid'.symm.trans hid)
  exact ⟨hdecode, hdeleted.symm⟩

/-- The verdicts on a message agree unless it is deleted in its own group and the direct message has
another one, where the deletion is not honoured. -/
theorem verdictsAgree_iff (codec : MessageCodec β) (db : MessageDb) (dmId : String)
    (m : StoredGroupMessage) (hm : m ∈ db.messages.rows) (hgroup : m.groupId ∈ stitched db dmId) :
    VerdictsAgree codec db dmId m.id ↔
      ((codec.decodeContent m.decryptedMessageBytes).isSome → lastValid db m = false ∨
        ∀ g ∈ stitched db dmId, g = m.groupId) := by
  constructor
  · intro h hdecode
    by_cases hone : ∀ g ∈ stitched db dmId, g = m.groupId
    · exact .inr hone
    · left
      obtain ⟨g, hg, hne⟩ : ∃ g ∈ stitched db dmId, g ≠ m.groupId := by simpa using hone
      have hown : Listed codec db m.groupId m.id (lastValid db m) :=
        (listed_iff hm (groupIdFilter_of_mem_stitched hgroup hgroup)).mpr ⟨hdecode, rfl⟩
      have hother : Listed codec db g m.id false :=
        (listed_iff hm (groupIdFilter_of_mem_stitched hg hgroup)).mpr
          ⟨hdecode, verdict_of_ne hne.symm⟩
      exact h.listed _ hgroup g hg _ _ hown hother
  · intro h
    have hsame : (codec.decodeContent m.decryptedMessageBytes).isSome → ∀ g ∈ stitched db dmId,
        verdict db g m = lastValid db m := by
      intro hdecode g hg
      by_cases hown : m.groupId = g
      · rw [← hown]
        rfl
      · rcases h hdecode with hvalid | hone
        · rw [hvalid, verdict_of_ne hown]
        · exact absurd (hone g hg).symm hown
    constructor
    · intro g hg g' hg' deleted deleted' hlisted hlisted'
      obtain ⟨hdecode, rfl⟩ := (listed_iff hm (groupIdFilter_of_mem_stitched hg hgroup)).mp hlisted
      obtain ⟨-, rfl⟩ := (listed_iff hm (groupIdFilter_of_mem_stitched hg' hgroup)).mp hlisted'
      rw [hsame hdecode g hg, hsame hdecode g' hg']
    · intro g hg g' hg' deleted deleted' hreplied hreplied'
      obtain ⟨hdecode, rfl⟩ := verdict_of_repliedTo hm hreplied
      obtain ⟨-, rfl⟩ := verdict_of_repliedTo hm hreplied'
      rw [hsame hdecode g hg, hsame hdecode g' hg']

namespace StitchedSample

def dmGroup (id : UInt8) : StoredGroup where
  id := [id]
  createdAtNs := 0
  membershipState := .allowed
  conversationType := .dm
  dmId := some "dm:alice:bob"

def undeleted : MessageDb where
  messages := ⟨[Sample.text], by decide⟩
  deletions := .empty
  groups := ⟨[dmGroup 9, dmGroup 8], by decide⟩

def refused : MessageDb :=
  undeleted.storeDeletion (storedDeletion (Sample.deletion 3 "bob") Sample.text.id false)

def deleted : MessageDb :=
  undeleted.storeDeletion (storedDeletion (Sample.deletion 2 "alice") Sample.text.id false)

end StitchedSample

open StitchedSample in
theorem verdictsAgree_deletions :
    (refused.deletions.rows ≠ [] ∧ stitched refused "dm:alice:bob" = [[9], [8]] ∧
      VerdictsAgree Sample.codec refused "dm:alice:bob" Sample.text.id) ∧
    ({ deleted with groups := ⟨[dmGroup 9], by decide⟩ } : MessageDb).deletions.rows ≠ [] ∧
      VerdictsAgree Sample.codec { deleted with groups := ⟨[dmGroup 9], by decide⟩ } "dm:alice:bob"
        Sample.text.id := by
  constructor
  · exact ⟨by decide, by decide, (verdictsAgree_iff Sample.codec refused "dm:alice:bob" Sample.text
      (by decide) (by decide)).mpr fun _ => .inl (by decide)⟩
  · exact ⟨by decide, (verdictsAgree_iff Sample.codec _ "dm:alice:bob" Sample.text (by decide)
      (by decide)).mpr fun _ => .inr (by decide)⟩

open StitchedSample in
/-- Listed from the other group the message is shown again. -/
theorem deleted_shown_again :
    (∀ deletion ∈ deleted.deletions.rows, ∀ message ∈ deleted.messages.rows,
      message.id = deletion.deletedMessageId → deletion.groupId = message.groupId) ∧
    ¬VerdictsAgree Sample.codec deleted "dm:alice:bob" Sample.text.id := by
  refine ⟨by decide, fun h => ?_⟩
  have hm : Sample.text ∈ deleted.messages.rows := List.mem_singleton_self _
  have hdecode : (Sample.codec.decodeContent Sample.text.decryptedMessageBytes).isSome := by
    decide +kernel
  have hown : Listed Sample.codec deleted [9] Sample.text.id true :=
    (listed_iff hm (by decide)).mpr ⟨hdecode, by decide⟩
  have hother : Listed Sample.codec deleted [8] Sample.text.id false :=
    (listed_iff hm (by decide)).mpr ⟨hdecode, by decide⟩
  exact Bool.noConfusion (h.listed [9] (by decide) [8] (by decide) _ _ hown hother)

end LibXmtp.Messages
