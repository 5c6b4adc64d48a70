import LibXmtp.Messages.Enrichment

namespace LibXmtp.Messages

open LibXmtp.Data LibXmtp.Db

variable {β : Type}

abbrev Roles := Bytes → String → Bool

section Process

variable (codec : MessageCodec β) (roles : Roles)

def deletedMessageId (message : StoredGroupMessage) : Option Bytes := do
  let content ← codec.decodeEncodedContent message.decryptedMessageBytes
  let messageId ← codec.decodeDeleteMessage content
  codec.hex.decode messageId

def storedDeletion (message : StoredGroupMessage) (target : Bytes)
    (isSuperAdminDeletion : Bool) : StoredMessageDeletion where
  id := message.id
  groupId := message.groupId
  deletedMessageId := target
  deletedByInboxId := message.senderInboxId
  isSuperAdminDeletion
  deletedAtNs := message.sentAtNs

/-- Whether a deletion is stored, and as that of a super admin; one that arrives before its message
is judged when the message is shown. -/
def authorizeDeletion (original : Option StoredGroupMessage) (message : StoredGroupMessage) :
    Option Bool :=
  match original with
  | some original =>
    if original.groupId ≠ message.groupId then none
    else if !original.kind.isDeletable || !original.contentType.isDeletable then none
    else
      let isSender := original.senderInboxId = message.senderInboxId
      let isSuperAdminDeletion := if isSender then false else roles message.groupId message.senderInboxId
      if isSender || isSuperAdminDeletion then some isSuperAdminDeletion else none
  | none => some (roles message.groupId message.senderInboxId)

/-- The message that is gone from what is shown, if it was there, and the database afterwards. -/
def processDeleteMessage (db : MessageDb) (message : StoredGroupMessage) :
    Option StoredGroupMessage × MessageDb :=
  match deletedMessageId codec message with
  | none => (none, db)
  | some target =>
    let original := db.getGroupMessage target
    match authorizeDeletion roles original message with
    | none => (none, db)
    | some isSuperAdminDeletion =>
      (original, db.storeDeletion (storedDeletion message target isSuperAdminDeletion))

def receive (db : MessageDb) (message : StoredGroupMessage) : MessageDb :=
  let db := db.storeMessage message
  if message.contentType = .deleteMessage then (processDeleteMessage codec roles db message).2 else db

def receiveAll (db : MessageDb) (messages : List StoredGroupMessage) : MessageDb :=
  messages.foldl (receive codec roles) db

end Process

/-- The sender of a message or a super admin of its group asks to delete it, and it can be. -/
def Authorized (roles : Roles) (m message : StoredGroupMessage) : Prop :=
  m.kind.isDeletable = true ∧ m.contentType.isDeletable = true ∧ message.groupId = m.groupId ∧
    (message.senderInboxId = m.senderInboxId ∨ roles message.groupId message.senderInboxId = true)

instance decidableAuthorized (roles : Roles) (m message : StoredGroupMessage) :
    Decidable (Authorized roles m message) := by
  unfold Authorized
  infer_instance

def ShowsDeleted (codec : MessageCodec β) (db : MessageDb) (m : StoredGroupMessage)
    (deleted : Bool) : Prop :=
  ∀ messages, (∀ message ∈ messages, message ∈ db.messages.rows) →
    ∀ shown ∈ enrichMessages codec db m.groupId messages, shown.id = m.id →
      shown.body.isDeleted = deleted

section Shown

variable {codec : MessageCodec β} {db : MessageDb} {groupId : Bytes}

theorem mem_enrichAll {relations : Relations β} {messages : List StoredGroupMessage}
    {shown : EnrichedMessage β} (h : shown ∈ enrichAll codec groupId relations messages) :
    ∃ stored ∈ messages, shown.id = stored.id ∧
      (codec.decodeContent stored.decryptedMessageBytes).isSome ∧ shown.body.isDeleted =
        ((relations.deletions.get stored.id).filter (isDeletionValid · stored groupId)).isSome := by
  induction messages generalizing relations with
  | nil => cases h
  | cons stored messages ih =>
    rw [enrichAll] at h
    cases hdecode : DecodedMessage.tryFrom codec stored with
    | none =>
      rw [hdecode] at h
      obtain ⟨other, hother, heq⟩ := ih h
      exact ⟨other, List.mem_cons_of_mem _ hother, heq⟩
    | some decoded =>
      rw [hdecode] at h
      rcases List.mem_cons.mp h with rfl | h
      · refine ⟨stored, List.mem_cons_self, ?_⟩
        rw [DecodedMessage.tryFrom, Option.map_eq_some_iff] at hdecode
        obtain ⟨⟨contentType, content⟩, hcontent, rfl⟩ := hdecode
        rw [enrichMessage, hcontent]
        cases (relations.deletions.get stored.id).filter (isDeletionValid · stored groupId) <;>
          exact ⟨rfl, rfl, rfl⟩
      · obtain ⟨other, hother, heq⟩ := ih h
        exact ⟨other, List.mem_cons_of_mem _ hother, heq⟩

theorem exists_mem_enrichAll {relations : Relations β} {messages : List StoredGroupMessage}
    {m : StoredGroupMessage} (hm : m ∈ messages)
    (hdecode : (codec.decodeContent m.decryptedMessageBytes).isSome) :
    ∃ shown ∈ enrichAll codec groupId relations messages, shown.id = m.id := by
  induction messages generalizing relations with
  | nil => cases hm
  | cons stored messages ih =>
    rw [enrichAll]
    rcases List.mem_cons.mp hm with rfl | hm
    · obtain ⟨⟨contentType, content⟩, hcontent⟩ := Option.isSome_iff_exists.mp hdecode
      rw [DecodedMessage.tryFrom, hcontent]
      refine ⟨_, List.mem_cons_self, ?_⟩
      rw [enrichMessage]
      split <;> rfl
    · split
      · exact ih hm
      · obtain ⟨shown, hshown, hid⟩ := ih hm
        exact ⟨shown, List.mem_cons_of_mem _ hshown, hid⟩

def deletionsOf (db : MessageDb) (id : Bytes) : List StoredMessageDeletion :=
  db.deletions.rows.filter fun deletion => deletion.deletedMessageId = id

def lastValid (db : MessageDb) (m : StoredGroupMessage) : Bool :=
  ((deletionsOf db m.id).getLast?.filter (isDeletionValid · m m.groupId)).isSome

theorem get_deletions_getRelations {messageIds referenceIds : List Bytes} {id : Bytes}
    (hne : messageIds ≠ []) (hid : id ∈ messageIds ++ referenceIds) :
    (getRelations codec db groupId messageIds referenceIds).deletions.get id =
      (deletionsOf db id).getLast? := by
  have hempty : messageIds.isEmpty = false := by
    rw [Bool.eq_false_iff, ne_eq, List.isEmpty_iff]
    exact hne
  rw [getRelations, hempty, if_neg Bool.false_ne_true, get_getDeletions,
    MessageDb.getDeletionsForMessages, List.filter_filter, deletionsOf]
  congr 1
  refine List.filter_congr fun deletion _ => ?_
  by_cases heq : deletion.deletedMessageId = id
  · simp only [heq, decide_true, hid, Bool.and_true]
  · simp only [heq, decide_false, Bool.false_and]

theorem showsDeleted_iff {m : StoredGroupMessage} (hm : m ∈ db.messages.rows)
    (hdecode : (codec.decodeContent m.decryptedMessageBytes).isSome) (deleted : Bool) :
    ShowsDeleted codec db m deleted ↔ lastValid db m = deleted := by
  have hshown : ∀ messages, (∀ message ∈ messages, message ∈ db.messages.rows) →
      ∀ shown ∈ enrichMessages codec db m.groupId messages, shown.id = m.id →
        shown.body.isDeleted = lastValid db m := by
    intro messages hstored shown hmem hid
    obtain ⟨stored, hmessages, hid', _, hdeleted⟩ := mem_enrichAll hmem
    cases db.messages.eq_of_key_eq (hstored stored hmessages) hm (hid'.symm.trans hid)
    have hne : messages.map StoredGroupMessage.id ≠ [] :=
      List.ne_nil_of_mem (List.mem_map_of_mem hmessages)
    rw [hdeleted, get_deletions_getRelations hne
      (List.mem_append_left _ (List.mem_map_of_mem hmessages)), lastValid]
  constructor
  · intro h
    obtain ⟨shown, hmem, hid⟩ := exists_mem_enrichAll (List.mem_singleton_self m) hdecode
    have hone : ∀ message ∈ [m], message ∈ db.messages.rows := by simpa using hm
    rw [← h [m] hone shown hmem hid, hshown [m] hone shown hmem hid]
  · rintro rfl
    exact hshown

end Shown

def Names (codec : MessageCodec β) (id : Bytes) (message : StoredGroupMessage) : Prop :=
  message.contentType = .deleteMessage ∧ deletedMessageId codec message = some id

section Run

variable {codec : MessageCodec β} {roles : Roles} {db : MessageDb} {m message : StoredGroupMessage}

theorem deletionsOf_storeDeletion {deletion : StoredMessageDeletion} (id : Bytes)
    (hfresh : db.deletions.fetch deletion.id = none) :
    deletionsOf (db.storeDeletion deletion) id =
      deletionsOf db id ++ if deletion.deletedMessageId = id then [deletion] else [] := by
  have hnot := Table.fetch_eq_none_iff.mp hfresh
  simp only [deletionsOf, MessageDb.storeDeletion, Table.insertOrIgnore, hnot, dif_neg,
    not_false_eq_true, List.filter_append]
  split
  · rename_i hid
    simp [hid]
  · rename_i hid
    simp [hid]

variable (roles db) in
theorem receive_names {id : Bytes} (hnames : Names codec id message) :
    receive codec roles db message =
      ((authorizeDeletion roles ((db.storeMessage message).getGroupMessage id) message).elim
        (db.storeMessage message) fun isSuperAdminDeletion =>
          (db.storeMessage message).storeDeletion
            (storedDeletion message id isSuperAdminDeletion)) := by
  rw [receive, if_pos hnames.1, processDeleteMessage, hnames.2]
  cases h : authorizeDeletion roles ((db.storeMessage message).getGroupMessage id) message <;>
    simp [h]

variable (db) in
theorem getGroupMessage_storeMessage {id : Bytes} (hid : message.id ≠ id) :
    (db.storeMessage message).getGroupMessage id = db.getGroupMessage id := by
  rw [MessageDb.getGroupMessage, MessageDb.storeMessage, MessageDb.getGroupMessage]
  cases hfetch : db.messages.fetch message.id with
  | none => rw [Table.fetch_insertOrIgnore_of_none hfetch, if_neg hid]
  | some old =>
    have hmem : message.id ∈ db.messages.rows.map StoredGroupMessage.id := by
      obtain ⟨hold, hkey⟩ := Table.fetch_eq_some_iff.mp hfetch
      exact List.mem_map.mpr ⟨old, hold, hkey⟩
    rw [Table.insertOrIgnore, dif_pos hmem]

variable (roles db) in
theorem deletionsOf_receiveAll {id : Bytes} {messages : List StoredGroupMessage}
    (hnames : ∀ message ∈ messages, Names codec id message)
    (hids : ∀ message ∈ messages, message.id ≠ id)
    (hdistinct : (messages.map StoredGroupMessage.id).Nodup)
    (hfresh : ∀ message ∈ messages, db.deletions.fetch message.id = none) :
    (receiveAll codec roles db messages).getGroupMessage id = db.getGroupMessage id ∧
      (deletionsOf (receiveAll codec roles db messages) id = deletionsOf db id ++
        messages.filterMap fun message =>
          (authorizeDeletion roles (db.getGroupMessage id) message).map
            (storedDeletion message id)) ∧
      ∀ key, key ∉ messages.map StoredGroupMessage.id →
        (receiveAll codec roles db messages).deletions.fetch key = db.deletions.fetch key := by
  induction messages generalizing db with
  | nil => exact ⟨rfl, (List.append_nil _).symm, fun _ _ => rfl⟩
  | cons message messages ih =>
    obtain ⟨hnot, hdistinct⟩ := List.nodup_cons.mp hdistinct
    have hget := getGroupMessage_storeMessage db (hids message List.mem_cons_self)
    have hstep := receive_names roles db (hnames message List.mem_cons_self)
    rw [hget] at hstep
    have hone : (receive codec roles db message).getGroupMessage id = db.getGroupMessage id ∧
        deletionsOf (receive codec roles db message) id = deletionsOf db id ++
          ((authorizeDeletion roles (db.getGroupMessage id) message).map
            (storedDeletion message id)).toList ∧
        ∀ key, key ≠ message.id →
          (receive codec roles db message).deletions.fetch key = db.deletions.fetch key := by
      have hnone : (db.storeMessage message).deletions.fetch message.id = none :=
        hfresh message List.mem_cons_self
      rw [hstep]
      cases authorizeDeletion roles (db.getGroupMessage id) message with
      | none => exact ⟨hget, (List.append_nil _).symm, fun _ _ => rfl⟩
      | some flag =>
        refine ⟨hget, ?_, fun key hkey => ?_⟩
        · have htarget : (storedDeletion message id flag).deletedMessageId = id := rfl
          refine (deletionsOf_storeDeletion id hnone).trans ?_
          rw [if_pos htarget]
          rfl
        · exact (Table.fetch_insertOrIgnore_of_none hnone key).trans (if_neg hkey.symm)
    obtain ⟨hmessage, hdeletions, hfetch⟩ := hone
    obtain ⟨hlast, hrest, hkeys⟩ := ih (receive codec roles db message)
      (fun other hother => hnames other (List.mem_cons_of_mem _ hother))
      (fun other hother => hids other (List.mem_cons_of_mem _ hother)) hdistinct
      (fun other hother => by
        rw [hfetch other.id fun heq => hnot (heq ▸ List.mem_map_of_mem hother)]
        exact hfresh other (List.mem_cons_of_mem _ hother))
    refine ⟨hlast.trans hmessage, ?_, fun key hkey => ?_⟩
    · rw [receiveAll, List.foldl_cons, ← receiveAll, hrest, hdeletions, hmessage, List.append_assoc]
      cases h : (authorizeDeletion roles (db.getGroupMessage id) message).map
        (storedDeletion message id) <;> simp [h]
    · rw [List.map_cons, List.mem_cons, not_or] at hkey
      exact (hkeys key hkey.2).trans (hfetch key hkey.1)

theorem isDeletionValid_storedDeletion (m message : StoredGroupMessage) (flag : Bool) :
    isDeletionValid (storedDeletion message m.id flag) m m.groupId = true ↔
      m.kind.isDeletable = true ∧ m.contentType.isDeletable = true ∧ message.groupId = m.groupId ∧
        (message.senderInboxId = m.senderInboxId ∨ flag = true) := by
  by_cases hkind : m.kind.isDeletable = true <;> by_cases htype : m.contentType.isDeletable = true <;>
    by_cases hgroup : message.groupId = m.groupId <;>
      simp [isDeletionValid, storedDeletion, hkind, htype, hgroup]

theorem authorizeDeletion_some (roles : Roles) (m message : StoredGroupMessage) :
    authorizeDeletion roles (some m) message =
      if Authorized roles m message then
        some (!decide (m.senderInboxId = message.senderInboxId) &&
          roles message.groupId message.senderInboxId)
      else none := by
  by_cases hkind : m.kind.isDeletable = true <;> by_cases htype : m.contentType.isDeletable = true <;>
    by_cases hgroup : m.groupId = message.groupId <;>
      by_cases hsender : m.senderInboxId = message.senderInboxId <;>
        simp [authorizeDeletion, Authorized, hkind, htype, hgroup, hsender,
          eq_comm (a := message.groupId), eq_comm (a := message.senderInboxId)]

variable (codec roles) in
theorem deletionsOf_receive_self (hfresh : db.messages.fetch m.id = none)
    (hunused : db.deletions.fetch m.id = none) :
    (receive codec roles db m).getGroupMessage m.id = some m ∧
      deletionsOf (receive codec roles db m) m.id = deletionsOf db m.id ∧
        ∀ key, key ≠ m.id →
          (receive codec roles db m).deletions.fetch key = db.deletions.fetch key := by
  have hstored : (db.storeMessage m).getGroupMessage m.id = some m :=
    (Table.fetch_insertOrIgnore_of_none hfresh m.id).trans (if_pos rfl)
  rw [receive]
  split
  · rename_i htype
    rw [processDeleteMessage]
    cases deletedMessageId codec m with
    | none => exact ⟨hstored, rfl, fun _ _ => rfl⟩
    | some target =>
      by_cases htarget : target = m.id
      · subst htarget
        have hnone : authorizeDeletion roles (some m) m = none := by
          rw [authorizeDeletion_some, if_neg]
          rintro ⟨_, hdeletable, _⟩
          rw [htype] at hdeletable
          cases hdeletable
        simp only [hstored, hnone]
        exact ⟨trivial, rfl, fun _ _ => rfl⟩
      · cases hflag : authorizeDeletion roles ((db.storeMessage m).getGroupMessage target) m with
        | none =>
          simp only [hflag]
          exact ⟨hstored, rfl, fun _ _ => rfl⟩
        | some flag =>
          simp only [hflag]
          have hother : (storedDeletion m target flag).deletedMessageId ≠ m.id := htarget
          refine ⟨hstored, ?_, fun key hkey => ?_⟩
          · refine (deletionsOf_storeDeletion m.id hunused).trans ?_
            rw [if_neg hother, List.append_nil]
            rfl
          · exact (Table.fetch_insertOrIgnore_of_none hunused key).trans (if_neg hkey.symm)
  · exact ⟨hstored, rfl, fun _ _ => rfl⟩

end Run

/-- What a message and its deletions find when they arrive: neither the message, nor any of the
deletions, and no others that name it. -/
structure Unseen (db : MessageDb) (m : StoredGroupMessage) (deletions : List StoredGroupMessage) :
    Prop where
  message : db.messages.fetch m.id = none
  unnamed : deletionsOf db m.id = []
  fresh : ∀ message ∈ m :: deletions, db.deletions.fetch message.id = none
  distinct : ((m :: deletions).map StoredGroupMessage.id).Nodup

/-- The verdict on a message is that of the deletions in it that are authorized. -/
def VerdictRight (codec : MessageCodec β) (roles : Roles) (db : MessageDb) (m : StoredGroupMessage)
    (before after : List StoredGroupMessage) : Prop :=
  ShowsDeleted codec (receiveAll codec roles db (before ++ m :: after)) m
    (decide (∃ message ∈ before ++ after, Authorized roles m message))

section Verdict

variable {codec : MessageCodec β} {roles : Roles} {db : MessageDb} {m : StoredGroupMessage}
  {before after : List StoredGroupMessage}

variable (roles) in
theorem deletionsOf_order (hunseen : Unseen db m (before ++ after))
    (hnames : ∀ message ∈ before ++ after, Names codec m.id message) :
    (receiveAll codec roles db (before ++ m :: after)).getGroupMessage m.id = some m ∧
      deletionsOf (receiveAll codec roles db (before ++ m :: after)) m.id =
        (before.map fun message =>
          storedDeletion message m.id (roles message.groupId message.senderInboxId)) ++
        after.filterMap fun message =>
          (authorizeDeletion roles (some m) message).map (storedDeletion message m.id) := by
  obtain ⟨hself, hdistinct⟩ := List.nodup_cons.mp hunseen.distinct
  have hids : ∀ message ∈ before ++ after, message.id ≠ m.id := fun message hmem heq =>
    hself (heq ▸ List.mem_map_of_mem hmem)
  rw [List.map_append, List.nodup_append] at hdistinct
  obtain ⟨hbefore, hafter, hdisjoint⟩ := hdistinct
  rw [receiveAll, List.foldl_append, List.foldl_cons, ← receiveAll, ← receiveAll]
  obtain ⟨hget, hstored, hkeys⟩ := deletionsOf_receiveAll roles db
    (fun message hmem => hnames message (List.mem_append_left _ hmem))
    (fun message hmem => hids message (List.mem_append_left _ hmem)) hbefore
    (fun message hmem => hunseen.fresh message (by simp [hmem]))
  have hnone : db.getGroupMessage m.id = none := hunseen.message
  rw [hunseen.unnamed, List.nil_append, hnone] at hstored
  rw [hnone] at hget
  have hunused : (receiveAll codec roles db before).deletions.fetch m.id = none := by
    have hnot : m.id ∉ before.map StoredGroupMessage.id := fun hmem =>
      hself (by rw [List.map_append]; exact List.mem_append_left _ hmem)
    rw [hkeys m.id hnot]
    exact hunseen.fresh m List.mem_cons_self
  obtain ⟨hmessage, hsame, hother⟩ :=
    deletionsOf_receive_self codec roles hget hunused
  obtain ⟨hlast, hrest, _⟩ := deletionsOf_receiveAll roles
    (receive codec roles (receiveAll codec roles db before) m)
    (fun message hmem => hnames message (List.mem_append_right _ hmem))
    (fun message hmem => hids message (List.mem_append_right _ hmem)) hafter
    (fun message hmem => by
      have hne := hids message (List.mem_append_right _ hmem)
      have hnot : message.id ∉ before.map StoredGroupMessage.id := fun hbefore =>
        hdisjoint _ hbefore _ (List.mem_map_of_mem hmem) rfl
      rw [hother message.id hne, hkeys message.id hnot]
      exact hunseen.fresh message (by simp [hmem]))
  refine ⟨hlast.trans hmessage, ?_⟩
  rw [hrest, hsame, hstored, hmessage]
  congr 1
  exact List.filterMap_eq_map_iff_forall_eq_some.mpr fun _ _ => rfl

variable (roles) in
theorem lastValid_order (hunseen : Unseen db m (before ++ after))
    (hnames : ∀ message ∈ before ++ after, Names codec m.id message) :
    lastValid (receiveAll codec roles db (before ++ m :: after)) m = true ↔
      (∃ message ∈ after, Authorized roles m message) ∨
        ∃ message, before.getLast? = some message ∧ Authorized roles m message := by
  rw [lastValid, (deletionsOf_order roles hunseen hnames).2, List.getLast?_append]
  generalize hstored : (after.filterMap fun message =>
    (authorizeDeletion roles (some m) message).map (storedDeletion message m.id)) = stored
  cases hlast : stored.getLast? with
  | some deletion =>
    have hmem : deletion ∈ stored := List.mem_of_getLast? hlast
    rw [← hstored] at hmem
    obtain ⟨message, hmessage, hdeletion⟩ := List.mem_filterMap.mp hmem
    rw [authorizeDeletion_some] at hdeletion
    split at hdeletion
    · rename_i hauthorized
      cases hdeletion
      have hvalid := (isDeletionValid_storedDeletion m message
        (!decide (m.senderInboxId = message.senderInboxId) &&
          roles message.groupId message.senderInboxId)).mpr ⟨hauthorized.1, hauthorized.2.1,
            hauthorized.2.2.1, by
              by_cases hsender : message.senderInboxId = m.senderInboxId
              · exact .inl hsender
              · have hrole := hauthorized.2.2.2.resolve_left hsender
                exact .inr (by simp [Ne.symm hsender, hrole])⟩
      simp only [Option.some_or, Option.filter_some, hvalid, if_true, Option.isSome_some, true_iff]
      exact .inl ⟨message, hmessage, hauthorized⟩
    · cases hdeletion
  | none =>
    have hunauthorized : ¬∃ message ∈ after, Authorized roles m message := by
      rintro ⟨message, hmessage, hauthorized⟩
      rw [List.getLast?_eq_none_iff] at hlast
      rw [hlast, List.filterMap_eq_nil_iff] at hstored
      have hnone := hstored message hmessage
      rw [authorizeDeletion_some, if_pos hauthorized] at hnone
      cases hnone
    rw [Option.none_or, List.getLast?_map]
    cases before.getLast? with
    | none => simp [hunauthorized]
    | some message =>
      have hvalid := isDeletionValid_storedDeletion m message
        (roles message.groupId message.senderInboxId)
      simp only [Option.map_some, Option.isSome_filter, Option.any_some, hvalid, hunauthorized,
        false_or, Option.some.injEq, exists_eq_left']
      rfl

end Verdict

def NotMasked (codec : MessageCodec β) (roles : Roles) (m : StoredGroupMessage)
    (before after : List StoredGroupMessage) : Prop :=
  (codec.decodeContent m.decryptedMessageBytes).isSome → (∃ message ∈ before, Authorized roles m message) →
    (∃ message ∈ after, Authorized roles m message) ∨
      ∃ message, before.getLast? = some message ∧ Authorized roles m message

theorem verdictRight_iff {codec : MessageCodec β} {roles : Roles} {db : MessageDb}
    {m : StoredGroupMessage} {before after : List StoredGroupMessage}
    (hunseen : Unseen db m (before ++ after))
    (hnames : ∀ message ∈ before ++ after, Names codec m.id message) :
    VerdictRight codec roles db m before after ↔ NotMasked codec roles m before after := by
  have hlast := lastValid_order roles hunseen hnames
  obtain ⟨hget, _⟩ := deletionsOf_order roles hunseen hnames
  have hstored := (Table.fetch_eq_some_iff.mp hget).1
  by_cases hdecode : (codec.decodeContent m.decryptedMessageBytes).isSome
  · rw [VerdictRight, showsDeleted_iff hstored hdecode, Bool.eq_iff_iff, hlast, decide_eq_true_eq,
      NotMasked]
    constructor
    · rintro h _ ⟨message, hmem, hauthorized⟩
      exact h.mpr ⟨message, List.mem_append_left _ hmem, hauthorized⟩
    · intro h
      constructor
      · rintro (⟨message, hmem, hauthorized⟩ | ⟨message, hmem, hauthorized⟩)
        · exact ⟨message, List.mem_append_right _ hmem, hauthorized⟩
        · exact ⟨message, List.mem_append_left _ (List.mem_of_getLast? hmem), hauthorized⟩
      · rintro ⟨message, hmem, hauthorized⟩
        rcases List.mem_append.mp hmem with hmem | hmem
        · exact h hdecode ⟨message, hmem, hauthorized⟩
        · exact .inl ⟨message, hmem, hauthorized⟩
  · rw [NotMasked, iff_true_right fun h => absurd h hdecode]
    intro messages hmessages shown hmem hid
    obtain ⟨stored, hmem, hid', hsome, _⟩ := mem_enrichAll hmem
    cases Table.eq_of_key_eq _ (hmessages stored hmem) hstored (hid'.symm.trans hid)
    exact absurd hsome hdecode

theorem Unseen.of_perm {db : MessageDb} {m : StoredGroupMessage}
    {deletions deletions' : List StoredGroupMessage} (h : Unseen db m deletions)
    (hperm : deletions'.Perm deletions) : Unseen db m deletions' where
  message := h.message
  unnamed := h.unnamed
  fresh message hmem := h.fresh message ((hperm.cons m).mem_iff.mp hmem)
  distinct := (((hperm.cons m).map _).nodup_iff).mpr h.distinct

/-- A deletion that nobody may make hides the ones before it, as long as the message has not
arrived; so the verdict depends on the order as soon as some of the deletions may be made and others
may not. -/
theorem deletion_verdicts (codec : MessageCodec β) (roles : Roles) (db : MessageDb)
    (m : StoredGroupMessage) (deletions : List StoredGroupMessage) (hunseen : Unseen db m deletions)
    (hnames : ∀ message ∈ deletions, Names codec m.id message) :
    (∀ before after, (before ++ after).Perm deletions →
      (VerdictRight codec roles db m before after ↔ NotMasked codec roles m before after)) ∧
    ((∀ before after, (before ++ after).Perm deletions →
      VerdictRight codec roles db m before after) ↔
        ((codec.decodeContent m.decryptedMessageBytes).isSome →
          (∀ message ∈ deletions, Authorized roles m message) ∨
            ∀ message ∈ deletions, ¬Authorized roles m message)) := by
  have hiff : ∀ before after, (before ++ after).Perm deletions →
      (VerdictRight codec roles db m before after ↔ NotMasked codec roles m before after) :=
    fun before after hperm => verdictRight_iff (hunseen.of_perm hperm) fun message hmem =>
      hnames message (hperm.mem_iff.mp hmem)
  refine ⟨hiff, ?_, ?_⟩
  · intro h hdecode
    by_contra hmixed
    obtain ⟨hsome, hother⟩ := not_or.mp hmixed
    obtain ⟨bad, hbad, hunauthorized⟩ : ∃ message ∈ deletions, ¬Authorized roles m message := by
      simpa using hsome
    obtain ⟨good, hgood, hauthorized⟩ : ∃ message ∈ deletions, Authorized roles m message := by
      simpa using hother
    have hperm : ((deletions.erase bad ++ [bad]) ++ []).Perm deletions := by
      rw [List.append_nil]
      exact (List.perm_append_singleton _ _).trans (List.perm_cons_erase hbad).symm
    have hne : good ≠ bad := fun heq => hunauthorized (heq ▸ hauthorized)
    have hbefore : good ∈ deletions.erase bad ++ [bad] :=
      List.mem_append_left _ ((List.mem_erase_of_ne hne).mpr hgood)
    rcases (hiff _ _ hperm).mp (h _ _ hperm) hdecode ⟨good, hbefore, hauthorized⟩ with
      ⟨message, hmem, _⟩ | ⟨message, hlast, hmessage⟩
    · cases hmem
    · rw [List.getLast?_concat] at hlast
      cases hlast
      exact hunauthorized hmessage
  · intro h before after hperm
    rw [hiff before after hperm]
    rintro hdecode ⟨message, hmem, hauthorized⟩
    have hdeletions := hperm.mem_iff.mp (List.mem_append_left after hmem)
    have hall := (h hdecode).resolve_right fun hnone => hnone message hdeletions hauthorized
    obtain ⟨last, hlast⟩ : ∃ last, before.getLast? = some last := by
      rw [← Option.ne_none_iff_exists', ne_eq, List.getLast?_eq_none_iff]
      exact List.ne_nil_of_mem hmem
    exact .inr ⟨last, hlast, hall last (hperm.mem_iff.mp
      (List.mem_append_left _ (List.mem_of_getLast? hlast)))⟩

namespace Sample

def ascii (text : String) : Bytes := text.toUTF8.data.toList

def contentOf (typeId : String) (content : Bytes) : Bytes :=
  let contentType := [0x0A, 8] ++ ascii "xmtp.org" ++ [0x12, typeId.utf8ByteSize.toUInt8] ++
    ascii typeId ++ [0x18, 1]
  [0x0A, contentType.length.toUInt8] ++ contentType ++ [0x22, content.length.toUInt8] ++ content

def textBytes : Bytes := contentOf "text" (ascii "hi")

def deletionContent : Bytes := [0x0A, 2] ++ ascii "01"

def deletionBytes : Bytes := contentOf "deleteMessage" deletionContent

def codec : MessageCodec Bytes where
  decodeContent bytes :=
    if bytes = textBytes then some (⟨"xmtp.org", "text", 1, 0⟩, .other (ascii "hi"))
    else if bytes = deletionBytes then
      some (⟨"xmtp.org", "deleteMessage", 1, 0⟩, .other deletionBytes)
    else none
  decodeEncodedContent bytes :=
    if bytes = textBytes then some (ascii "hi")
    else if bytes = deletionBytes then some deletionContent
    else none
  decodeDeleteMessage bytes := if bytes = deletionContent then some "01" else none
  hex := .lower

def text : StoredGroupMessage := ⟨[1], [9], textBytes, 10, .application, "alice", .text, none⟩

def deletion (id : UInt8) (inboxId : String) : StoredGroupMessage :=
  ⟨[id], [9], deletionBytes, 20, .application, inboxId, .deleteMessage, none⟩

def noAdmins : Roles := fun _ _ => false

theorem names_deletion (id : UInt8) (inboxId : String) : Names codec text.id (deletion id inboxId) := by
  have htarget : deletedMessageId codec (deletion 0 "") = some [1] := by decide +kernel
  exact ⟨rfl, htarget⟩

end Sample

open Sample in
theorem deletion_verdicts_alice : VerdictRight codec noAdmins .empty text
    [deletion 2 "alice", deletion 3 "bob"] [deletion 4 "bob", deletion 5 "alice"] := by
  have hnames : ∀ message ∈ [deletion 2 "alice", deletion 3 "bob", deletion 4 "bob",
      deletion 5 "alice"], Names codec text.id message := by
    simpa using ⟨names_deletion 2 "alice", names_deletion 3 "bob", names_deletion 4 "bob",
      names_deletion 5 "alice"⟩
  refine ((deletion_verdicts codec noAdmins .empty text _ ⟨rfl, rfl, by decide, by decide⟩
    hnames).1 _ _ (.refl _)).mpr ?_
  exact fun _ _ => .inl ⟨deletion 5 "alice", by decide, by decide⟩

/-- Another member asks for the deletion as well, before the message arrives. -/
theorem deletion_masked : Unseen .empty Sample.text [Sample.deletion 2 "alice",
      Sample.deletion 3 "bob"] ∧
    ¬VerdictRight Sample.codec Sample.noAdmins .empty Sample.text
      [Sample.deletion 2 "alice", Sample.deletion 3 "bob"] [] := by
  have hunseen : Unseen .empty Sample.text [Sample.deletion 2 "alice", Sample.deletion 3 "bob"] :=
    ⟨rfl, rfl, by decide, by decide⟩
  refine ⟨hunseen, fun h => ?_⟩
  have hnames : ∀ message ∈ [Sample.deletion 2 "alice", Sample.deletion 3 "bob"] ++ [],
      Names Sample.codec Sample.text.id message := by
    simpa using ⟨Sample.names_deletion 2 "alice", Sample.names_deletion 3 "bob"⟩
  rcases (verdictRight_iff hunseen hnames).mp h (by decide +kernel)
    ⟨Sample.deletion 2 "alice", by decide, by decide⟩ with ⟨_, hmem, _⟩ | ⟨message, hlast, hbob⟩
  · cases hmem
  · cases hlast
    exact absurd hbob (by decide)

end LibXmtp.Messages
