import LibXmtp.Data.Result
import LibXmtp.Groups.CommitLog
import Mathlib.Data.List.ReduceOption
import Mathlib.Logic.Relation

namespace LibXmtp.Groups.CommitLogWorker

open LibXmtp.Data LibXmtp.Types LibXmtp.Db CommitLogStore Relation
open LibXmtp.Data.Session (Triple)

theorem flatten_toChunks_go {α : Type} (n : Nat) (xs : List α) (chunk : Array α)
    (chunks : Array (List α)) :
    (List.toChunks.go n xs chunk chunks).flatten =
      chunks.toList.flatten ++ chunk.toList ++ xs := by
  induction xs generalizing chunk chunks with
  | nil => simp [List.toChunks.go]
  | cons x xs ih =>
    rw [List.toChunks.go]
    split <;> simp [ih]

theorem flatten_toChunks {α : Type} (n : Nat) (xs : List α) : (xs.toChunks n).flatten = xs := by
  cases xs with
  | nil => rfl
  | cons x xs =>
    cases n with
    | zero => simp [List.toChunks]
    | succ n => simp [List.toChunks, flatten_toChunks_go]

def content (request : PublishCommitLogRequest) : Bytes × Bytes :=
  (request.groupId, request.serializedCommitLogEntry)

/-- The entries that are for the remote log: those that do not start a chain and that did not
remove the member. -/
structure Publishable (log : LocalCommitLog) : Prop where
  commitSequenceId : log.commitSequenceId ≠ 0
  commitType : log.commitType ≠ some CommitType.removedFromGroup.toString

section Upload

variable (crypto : CommitLogCrypto)

def contentOf (log : LocalCommitLog) : Bytes × Bytes :=
  (log.groupId, crypto.encode (.fromLocal log))

/-- The entry has its place in a row of entries that the server has accepted. -/
def Uploaded (s : CommitLogStore) (log : LocalCommitLog) : Prop :=
  ∃ (logs : List LocalCommitLog) (before after : List (Bytes × Bytes)),
    s.published.flatten.map content = before ++ logs.map (contentOf crypto) ++ after ∧
      (logs.Pairwise fun r s => r.rowid < s.rowid) ∧ log ∈ logs

variable {crypto}

theorem Uploaded.mono {s s' : CommitLogStore} {log : LocalCommitLog} (h : Uploaded crypto s log)
    {batches : List (List PublishCommitLogRequest)} (hs : s'.published = s.published ++ batches) :
    Uploaded crypto s' log := by
  obtain ⟨logs, before, after, hpublished, hlogs, hmem⟩ := h
  refine ⟨logs, before, after ++ batches.flatten.map content, ?_, hlogs, hmem⟩
  rw [hs, List.flatten_append, List.map_append, hpublished, List.append_assoc]

theorem Uploaded.exists_batch {s : CommitLogStore} {log : LocalCommitLog}
    (h : Uploaded crypto s log) : ∃ batch ∈ s.published, ∃ request ∈ batch,
      content request = contentOf crypto log := by
  obtain ⟨logs, before, after, hpublished, _, hmem⟩ := h
  have hcontent : contentOf crypto log ∈ s.published.flatten.map content := by
    rw [hpublished]
    exact List.mem_append_left _ (List.mem_append_right _ (List.mem_map_of_mem hmem))
  obtain ⟨request, hrequest, heq⟩ := List.mem_map.mp hcontent
  obtain ⟨batch, hbatch, hin⟩ := List.mem_flatten.mp hrequest
  exact ⟨batch, hbatch, request, hin, heq⟩

end Upload

section Run

variable {crypto : CommitLogCrypto} {calls : PublishCalls} {s₀ s s' : CommitLogStore}

structure Untouched (s₀ s : CommitLogStore) : Prop where
  localCommitLog : s.localCommitLog = s₀.localCommitLog
  published : s.published = s₀.published
  cursor : ∀ id kind, s.cursor id kind = s₀.cursor id kind

theorem Untouched.refl (s : CommitLogStore) : Untouched s s := ⟨rfl, rfl, fun _ _ => rfl⟩

theorem Untouched.trans {s₁ : CommitLogStore} (h : Untouched s₀ s₁) (h' : Untouched s₁ s) :
    Untouched s₀ s :=
  ⟨h'.1.trans h.1, h'.2.trans h.2, fun id kind => (h'.3 id kind).trans (h.3 id kind)⟩

theorem triple_lastCursor (id : Bytes) (kind : EntityKind) :
    Triple (Untouched s₀) (lastCursor id kind) fun r s =>
      Untouched s₀ s ∧ ∀ n, r = .ok n → n = s₀.cursor id kind where
  run s hs := by
    refine ⟨hs.trans ⟨rfl, rfl, fun id' kind' => ?_⟩, fun n hn => ?_⟩
    · exact cursorOf_getLastCursorForOriginator id s.refreshStates kind kind' _ _
    · rw [← hs.cursor]
      exact (Except.ok.inj hn).symm

theorem map_content_of_mapM_signEntry {conversation : StoredGroupCommitLogPublicKey}
    {privateKey : Bytes} {entries : List PlaintextCommitLogEntry}
    {requests : List PublishCommitLogRequest}
    (h : entries.mapM (signEntry crypto conversation privateKey) = .ok requests) :
    requests.map content = entries.map fun entry => (conversation.id, crypto.encode entry) := by
  induction entries generalizing requests with
  | nil =>
    rw [List.mapM_nil, pure_eq_ok] at h
    rw [← h]
    rfl
  | cons entry entries ih =>
    simp only [List.mapM_cons, bind_eq_ok, pure_eq_ok, signEntry] at h
    obtain ⟨request, ⟨bytes, _, publicKey, _, hrequest⟩, rest, hrest, heq⟩ := h
    rw [← heq, List.map_cons, List.map_cons, ih hrest, ← hrequest]
    rfl

/-- What is known of the entries of a conversation that are ready to be published. -/
structure Prepared (crypto : CommitLogCrypto) (calls : PublishCalls) (s₀ : CommitLogStore)
    (conversation : StoredGroupCommitLogPublicKey)
    (prepared : ConversationCursorInfo × List PublishCommitLogRequest) : Prop where
  conversationId : prepared.1.conversationId = conversation.id
  rowid_le : prepared.1.lastEntryPublishedRowid ≤ s₀.localCommitLog.lastRowid
  logs : ∃ logs : List LocalCommitLog, (logs.Pairwise fun r s => r.rowid < s.rowid) ∧
    (∀ log ∈ s₀.localCommitLog.rows, log.groupId = conversation.id → Publishable log →
      s₀.cursor conversation.id .commitLogUpload < log.rowid → log ∈ logs) ∧
    (calls.getOrCreateSigningKey conversation ≠ .ok none →
      prepared.2.map content = logs.map (contentOf crypto))

def unpublished (s : CommitLogStore) (conversation : StoredGroupCommitLogPublicKey) :
    List LocalCommitLog :=
  LocalCommitLogs.after s.localCommitLog conversation.id
    (s.cursor conversation.id .commitLogUpload)

structure Signed (crypto : CommitLogCrypto) (calls : PublishCalls) (s₀ : CommitLogStore)
    (conversation : StoredGroupCommitLogPublicKey)
    (prepared : ConversationCursorInfo × List PublishCommitLogRequest) : Prop where
  conversationId : prepared.1.conversationId = conversation.id
  rowid : ∃ last, (unpublished s₀ conversation).getLast? = some last ∧
    prepared.1.lastEntryPublishedRowid = last.rowid
  signed : signGroupLogs crypto calls conversation
    (entriesToPublish (unpublished s₀ conversation)) = .ok prepared.2

theorem Signed.prepared {conversation : StoredGroupCommitLogPublicKey}
    {prepared : ConversationCursorInfo × List PublishCommitLogRequest}
    (h : Signed crypto calls s₀ conversation prepared) :
    Prepared crypto calls s₀ conversation prepared := by
  obtain ⟨hid, ⟨last, hlast, hrowid⟩, hsign⟩ := h
  have hmem : ∀ log ∈ unpublished s₀ conversation,
      log ∈ s₀.localCommitLog.rows ∧ log.groupId = conversation.id := by
    intro log hlog
    rw [unpublished, LocalCommitLogs.mem_after] at hlog
    exact ⟨hlog.1, hlog.2.1⟩
  refine ⟨hid, ?_, (unpublished s₀ conversation).filter fun log =>
    log.commitType ≠ some CommitType.removedFromGroup.toString, ?_, ?_, ?_⟩
  · rw [hrowid]
    exact s₀.localCommitLog.le_lastRowid (hmem last (List.mem_of_getLast? hlast)).1
  · apply List.Pairwise.filter
    exact LocalCommitLogs.pairwise_after _ _ _
  · intro log hlog hgroup hpublishable hcursor
    rw [List.mem_filter, unpublished, LocalCommitLogs.mem_after]
    exact ⟨⟨hlog, hgroup, hcursor, hpublishable.commitSequenceId⟩,
      decide_eq_true hpublishable.commitType⟩
  · intro hkey
    rw [signGroupLogs, bind_eq_ok] at hsign
    obtain ⟨key, hget, hsigned⟩ := hsign
    cases key with
    | none => exact absurd hget hkey
    | some privateKey =>
      rw [map_content_of_mapM_signEntry hsigned, entriesToPublish, List.map_map]
      apply List.map_congr_left
      intro log hlog
      rw [contentOf, (hmem log (List.mem_of_mem_filter hlog)).2]
      rfl

def AfterPrepare (crypto : CommitLogCrypto) (calls : PublishCalls) (s₀ : CommitLogStore)
    (conversation : StoredGroupCommitLogPublicKey)
    (r : Except CommitLogError (Option (ConversationCursorInfo × List PublishCommitLogRequest)))
    (s : CommitLogStore) : Prop :=
  Untouched s₀ s ∧
    ∀ p, r = .ok p → ∀ prepared ∈ p, Signed crypto calls s₀ conversation prepared

variable (crypto calls s₀)

theorem triple_prepareConversation (conversation : StoredGroupCommitLogPublicKey) :
    Triple (Untouched s₀) (prepareConversation crypto calls conversation)
      (AfterPrepare crypto calls s₀ conversation) := by
  have herror (e : CommitLogError) (s : CommitLogStore) (hs : Untouched s₀ s) :
      AfterPrepare crypto calls s₀ conversation (.error e) s := ⟨hs, fun _ h => by cases h⟩
  have hnone : Triple (Untouched s₀) (pure none) (AfterPrepare crypto calls s₀ conversation) := by
    refine .pure fun s hs => ⟨hs, fun p h prepared hmem => ?_⟩
    cases h
    cases hmem
  apply Triple.ofExcept_bind herror
  intro _ _
  apply Triple.read_bind
  intro _ _
  apply Triple.bind ((triple_lastCursor _ _).onOk_of_and herror)
  intro published
  apply Triple.assume
  intro hpublished
  split
  · exact hnone
  · apply Triple.read_bind
    intro s hs
    apply Triple.ofExcept_bind herror
    intro logs hlogs
    have hunpublished : logs = unpublished s₀ conversation := by
      rw [unpublished, ← hpublished, ← hs.localCommitLog]
      exact LocalCommitLogs.getLocalCommitLogAfterCursor_ascending (mapError_eq_ok.mp hlogs)
    cases hlast : logs.getLast? with
    | none => exact hnone
    | some last =>
      apply Triple.ofExcept_bind herror
      intro requests hsign
      refine .pure fun t ht => ⟨ht, fun p h prepared hmem => ?_⟩
      cases h
      cases hmem
      rw [hunpublished] at hlast hsign
      exact ⟨rfl, ⟨last, hlast, rfl⟩, hsign⟩

theorem triple_preparePublishCommitLogInfo
    (conversations : List StoredGroupCommitLogPublicKey) :
    Triple (Untouched s₀) (preparePublishCommitLogInfo crypto calls conversations) fun r s =>
      Untouched s₀ s ∧ ∀ out, r = .ok out → ∃ prepared : List _, 
        List.Forall₂ (fun c p => ∀ q ∈ p, Signed crypto calls s₀ c q) conversations prepared ∧
        out = (prepared.reduceOption.map Prod.fst, (prepared.reduceOption.map Prod.snd).flatten) := by
  have hloop := Triple.mapM fun c (_ : c ∈ conversations) =>
    triple_prepareConversation crypto calls s₀ c
  apply Triple.bind (hloop.onOk_of_and fun e s hs => ⟨hs, fun _ h => by cases h⟩)
  intro prepared
  apply Triple.assume
  intro hprepared
  refine .pure fun s hs => ⟨hs, fun out h => ⟨prepared, hprepared, ?_⟩⟩
  exact (Except.ok.inj h).symm

theorem outcome_publishBatch (index : Nat) (batch : List PublishCommitLogRequest)
    (s : CommitLogStore) : ∃ r sent, (publishBatch calls index batch).outcome s =
        (r, { s with published := s.published ++ sent }) ∧ (r = .ok ⟨⟩ → sent = [batch]) := by
  rw [publishBatch]
  cases calls.respond index batch with
  | accepted => exact ⟨.ok ⟨⟩, [batch], rfl, fun _ => rfl⟩
  | lost => exact ⟨.error .api, [batch], rfl, fun h => by cases h⟩
  | refused => exact ⟨.error .api, [], by simp [Session.outcome_ofExcept], fun h => by cases h⟩

theorem outcome_publishBatches (batches : List (List PublishCommitLogRequest × Nat))
    (s : CommitLogStore) : ∃ r sent,
      (batches.forM fun (batch, index) => publishBatch calls index batch).outcome s =
        (r, { s with published := s.published ++ sent }) ∧
      (r = .ok ⟨⟩ → sent = batches.map Prod.fst) := by
  induction batches generalizing s with
  | nil => exact ⟨.ok ⟨⟩, [], by simp [Session.outcome_pure], fun _ => rfl⟩
  | cons batch batches ih =>
    obtain ⟨batch, index⟩ := batch
    rw [List.forM_eq_forM, List.forM_cons, Session.outcome_bind]
    obtain ⟨r, sent, hbatch, hok⟩ := outcome_publishBatch calls index batch s
    rw [hbatch]
    cases r with
    | error e => exact ⟨.error e, sent, rfl, fun h => by cases h⟩
    | ok _ =>
      obtain ⟨r, rest, hrest, hall⟩ := ih { s with published := s.published ++ sent }
      refine ⟨r, sent ++ rest, ?_, fun h => by rw [hok rfl, hall h]; rfl⟩
      rw [List.forM_eq_forM] at hrest
      exact hrest.trans (by rw [List.append_assoc])

theorem outcome_publishCommitLog (requests : List PublishCommitLogRequest) (s : CommitLogStore) :
    ∃ r sent, (publishCommitLog calls requests).outcome s =
        (r, { s with published := s.published ++ sent }) ∧
      (r = .ok ⟨⟩ → sent.flatten = requests) := by
  obtain ⟨r, sent, hout, hok⟩ :=
    outcome_publishBatches calls (requests.toChunks 10).zipIdx s
  refine ⟨r, sent, hout, fun h => ?_⟩
  rw [hok h, List.zipIdx_map_fst, flatten_toChunks]

variable {crypto calls s₀}

/-- A run that gets as far as the server: what it has prepared, and what of it was accepted. -/
structure Sent (crypto : CommitLogCrypto) (calls : PublishCalls) (s₀ : CommitLogStore)
    (conversations : List StoredGroupCommitLogPublicKey)
    (prepared : List (Option (ConversationCursorInfo × List PublishCommitLogRequest)))
    (sent : List (List PublishCommitLogRequest)) (t : CommitLogStore) : Prop where
  listed : calls.conversationIdsForRemoteLogPublish = .ok conversations
  each : List.Forall₂ (fun c p => ∀ q ∈ p, Prepared crypto calls s₀ c q) conversations prepared
  entries : (prepared.reduceOption.map Prod.snd).flatten ≠ []
  localCommitLog : t.localCommitLog = s₀.localCommitLog
  published : t.published = s₀.published ++ sent
  cursor : ∀ id kind, t.cursor id kind = s₀.cursor id kind

theorem publishCommitLogsToRemote_cases (crypto : CommitLogCrypto) (calls : PublishCalls)
    (s₀ : CommitLogStore) : ∀ s, ((publishCommitLogsToRemote crypto calls).outcome s₀).2 = s →
      Untouched s₀ s ∨ ∃ conversations prepared sent t,
        Sent crypto calls s₀ conversations prepared sent t ∧
          (s = t ∨ sent.flatten = (prepared.reduceOption.map Prod.snd).flatten ∧
            s = (((prepared.reduceOption.map Prod.fst).forM
              (updatePublishCursor calls)).outcome t).2) := by
  intro s hs
  rw [publishCommitLogsToRemote, Session.outcome_bind, Session.outcome_ofExcept] at hs
  cases hlisted : calls.conversationIdsForRemoteLogPublish with
  | error e =>
    rw [hlisted] at hs
    exact .inl (hs ▸ .refl s₀)
  | ok conversations =>
    rw [hlisted] at hs
    have hrun := (triple_preparePublishCommitLogInfo crypto calls s₀ conversations).run s₀
      (.refl s₀)
    simp only [Session.outcome_bind] at hs
    generalize (preparePublishCommitLogInfo crypto calls conversations).outcome s₀ = out at hrun hs
    obtain ⟨r, t⟩ := out
    cases r with
    | error e => exact .inl (hs ▸ hrun.1)
    | ok out =>
      obtain ⟨hkeep, hout⟩ := hrun
      obtain ⟨prepared, hprepared, rfl⟩ := hout out rfl
      simp only at hs
      split at hs
      · exact .inl (hs ▸ hkeep)
      · rename_i hentries
        obtain ⟨r, sent, hpublish, hok⟩ := outcome_publishCommitLog calls
          (prepared.reduceOption.map Prod.snd).flatten t
        have hsent : Sent crypto calls s₀ conversations prepared sent
            { t with published := t.published ++ sent } :=
          ⟨hlisted, hprepared.imp fun _ _ hp q hq => (hp q hq).prepared, hentries,
            hkeep.localCommitLog, by rw [hkeep.published], hkeep.cursor⟩
        refine .inr ⟨conversations, prepared, sent, _, hsent, ?_⟩
        rw [Session.outcome_bind, hpublish] at hs
        cases r with
        | error e => exact .inl hs.symm
        | ok _ =>
          refine .inr ⟨hok rfl, ?_⟩
          rw [← hs]
          simp only [Session.outcome_bind]
          generalize ((prepared.reduceOption.map Prod.fst).forM (updatePublishCursor calls)).outcome
            { t with published := t.published ++ sent } = out
          obtain ⟨r, u⟩ := out
          cases r <;> rfl

end Run

section Coverage

variable {crypto : CommitLogCrypto} {calls : PublishCalls} {g : Bytes} {s s' : CommitLogStore}

/-- The cursor of the published entries of a group covers no entry that is for the remote log and
that has not been uploaded. -/
structure Covered (crypto : CommitLogCrypto) (g : Bytes) (s : CommitLogStore) : Prop where
  cursor_le : s.cursor g .commitLogUpload ≤ s.localCommitLog.lastRowid
  uploaded : ∀ log ∈ s.localCommitLog.rows, log.groupId = g → Publishable log →
    log.rowid ≤ s.cursor g .commitLogUpload → Uploaded crypto s log

theorem Covered.mono (h : Covered crypto g s) (hlocal : s'.localCommitLog = s.localCommitLog)
    (hcursor : s'.cursor g .commitLogUpload = s.cursor g .commitLogUpload)
    {sent : List (List PublishCommitLogRequest)} (hs : s'.published = s.published ++ sent) :
    Covered crypto g s' := by
  refine ⟨?_, fun log hlog hgroup hpublishable hle => ?_⟩
  · rw [hcursor, hlocal]
    exact h.cursor_le
  · rw [hlocal] at hlog
    rw [hcursor] at hle
    exact (h.uploaded log hlog hgroup hpublishable hle).mono hs

theorem Covered.untouched (h : Covered crypto g s) (hs : Untouched s s') : Covered crypto g s' :=
  h.mono hs.localCommitLog (hs.cursor _ _) (by rw [hs.published, List.append_nil])

theorem Covered.store (h : Covered crypto g s) (log : NewLocalCommitLog) :
    Covered crypto g { s with localCommitLog := LocalCommitLogs.store s.localCommitLog log } := by
  have hle := h.cursor_le
  refine ⟨?_, fun log' hlog hgroup hpublishable hcovered => ?_⟩
  · exact Nat.le_trans hle (by simp [LocalCommitLogs.store])
  · rcases List.mem_append.mp hlog with hold | hnew
    · exact h.uploaded log' hold hgroup hpublishable hcovered
    · rw [List.mem_singleton.mp hnew] at hcovered
      have hnot : s.localCommitLog.lastRowid + 1 ≤ s.cursor g .commitLogUpload := hcovered
      omega

/-- A run that publishes something has the signing key of the group. -/
def Signs (crypto : CommitLogCrypto) (g : Bytes) (s : CommitLogStore) (calls : PublishCalls) :
    Prop :=
  ((publishCommitLogsToRemote crypto calls).outcome s).2.published = s.published ∨
    ∀ conversations, calls.conversationIdsForRemoteLogPublish = .ok conversations →
      ∀ c ∈ conversations, c.id = g → calls.getOrCreateSigningKey c ≠ .ok none

theorem uploaded_of_sent {conversations : List StoredGroupCommitLogPublicKey}
    {prepared : List (Option (ConversationCursorInfo × List PublishCommitLogRequest))}
    {sent : List (List PublishCommitLogRequest)}
    (h : Sent crypto calls s conversations prepared sent s')
    (hsent : sent.flatten = (prepared.reduceOption.map Prod.snd).flatten)
    {c : StoredGroupCommitLogPublicKey} {info : ConversationCursorInfo}
    {requests : List PublishCommitLogRequest} (hmem : some (info, requests) ∈ prepared)
    (hprepared : Prepared crypto calls s c (info, requests))
    (hkey : calls.getOrCreateSigningKey c ≠ .ok none) {log : LocalCommitLog}
    (hlog : log ∈ s.localCommitLog.rows) (hgroup : log.groupId = c.id)
    (hpublishable : Publishable log) (hcursor : s.cursor c.id .commitLogUpload < log.rowid) :
    Uploaded crypto s' log := by
  obtain ⟨logs, hascending, hlogs, hcontent⟩ := hprepared.logs
  have hreduced : (info, requests) ∈ prepared.reduceOption := List.reduceOption_mem_iff.mpr hmem
  obtain ⟨before, after, hsplit⟩ := List.append_of_mem hreduced
  refine ⟨logs, (s.published.flatten ++ (before.map Prod.snd).flatten).map content,
    (after.map Prod.snd).flatten.map content, ?_, hascending,
    hlogs log hlog hgroup hpublishable hcursor⟩
  rw [h.published, List.flatten_append, hsent, hsplit, ← hcontent hkey]
  simp

theorem triple_updatePublishCursors (infos : List ConversationCursorInfo)
    {P : CommitLogStore → Prop} (hset : ∀ info ∈ infos, ∀ s, P s →
      P (s.setCursor info.conversationId .commitLogUpload info.lastEntryPublishedRowid)) :
    Triple P (infos.forM (updatePublishCursor calls)) fun _ s => P s := by
  apply Triple.forM
  intro info hinfo
  exact .ofExcept_bind (fun _ _ hs => hs) fun _ _ => ⟨fun s hs => hset info hinfo s hs⟩

theorem published_updatePublishCursors (infos : List ConversationCursorInfo) (s : CommitLogStore) :
    ((infos.forM (updatePublishCursor calls)).outcome s).2.published = s.published := by
  have hloop : Triple (fun u => u.published = s.published)
      (infos.forM (updatePublishCursor calls)) _ :=
    triple_updatePublishCursors infos fun _ _ _ h => h
  exact hloop.run s rfl

theorem Covered.setCursor (h : Covered crypto g s) {id : Bytes} {n : Nat}
    (hn : n ≤ s.localCommitLog.lastRowid) (hlogs : id = g → ∀ log ∈ s.localCommitLog.rows,
      log.groupId = g → Publishable log → log.rowid ≤ n → Uploaded crypto s log) :
    Covered crypto g (s.setCursor id .commitLogUpload n) := by
  have hcursor := cursor_setCursor (s := s) g id .commitLogUpload .commitLogUpload n
  refine ⟨?_, fun log hlog hgroup hpublishable hle => ?_⟩
  · rw [hcursor]
    split
    · exact Nat.max_le.mpr ⟨h.cursor_le, hn⟩
    · exact h.cursor_le
  · rw [hcursor] at hle
    split at hle
    · rename_i hid
      have hsplit : log.rowid ≤ s.cursor g .commitLogUpload ∨ log.rowid ≤ n := by omega
      rcases hsplit with hold | hnew
      · exact h.uploaded log hlog hgroup hpublishable hold
      · exact hlogs hid.1 log hlog hgroup hpublishable hnew
    · exact h.uploaded log hlog hgroup hpublishable hle

theorem Covered.publish (h : Covered crypto g s) (hsigns : Signs crypto g s calls) :
    Covered crypto g ((publishCommitLogsToRemote crypto calls).outcome s).2 := by
  rcases publishCommitLogsToRemote_cases crypto calls s _ rfl with
    hsame | ⟨conversations, prepared, sent, t, hsent, hend⟩
  · exact h.untouched hsame
  · have ht : Covered crypto g t :=
      h.mono hsent.localCommitLog (hsent.cursor _ _) hsent.published
    rcases hend with heq | ⟨hall, heq⟩
    · rw [heq]
      exact ht
    · have hkeys : ∀ c ∈ conversations, c.id = g → calls.getOrCreateSigningKey c ≠ .ok none := by
        rcases hsigns with hsame | hkeys
        · rw [heq, published_updatePublishCursors, hsent.published] at hsame
          rw [List.append_right_eq_self.mp hsame] at hall
          exact absurd hall.symm hsent.entries
        · exact hkeys conversations hsent.listed
      have hloop : Triple (fun u => u.localCommitLog = s.localCommitLog ∧
          u.published = t.published ∧ Covered crypto g u)
          ((prepared.reduceOption.map Prod.fst).forM (updatePublishCursor calls)) _ :=
        triple_updatePublishCursors _ ?_
      · rw [heq]
        exact (hloop.run t ⟨hsent.localCommitLog, rfl, ht⟩).2.2
      · rintro info hinfo u ⟨hlocal, hpublished, hu⟩
        obtain ⟨⟨info, requests⟩, hmem, rfl⟩ := List.mem_map.mp hinfo
        have hin := List.reduceOption_mem_iff.mp hmem
        obtain ⟨c, hc, hcp⟩ := exists_mem_of_forall₂ hsent.each.flip hin
        have hprepared := hcp (info, requests) rfl
        refine ⟨hlocal, hpublished, hu.setCursor ?_ fun hid log hlog hgroup hpublishable hle => ?_⟩
        · rw [hlocal]
          exact hprepared.rowid_le
        · rw [hlocal] at hlog
          have hcid : c.id = g := hprepared.conversationId.symm.trans hid
          have hup : Uploaded crypto t log := by
            rcases Nat.lt_or_ge (s.cursor g .commitLogUpload) log.rowid with hlt | hge
            · exact uploaded_of_sent hsent hall hin hprepared (hkeys c hc hcid) hlog
                (hgroup.trans hcid.symm) hpublishable (hcid ▸ hlt)
            · exact (h.uploaded log hlog hgroup hpublishable hge).mono hsent.published
          exact hup.mono (by rw [hpublished, List.append_nil])

end Coverage

/-- The life of a client: it stores what it processes, publishes runs that are allowed, and does
whatever leaves the local log, the cursors of what is published and the server alone. -/
inductive UploadStep (crypto : CommitLogCrypto)
    (allowed : CommitLogStore → PublishCalls → Prop) : CommitLogStore → CommitLogStore → Prop
  | store (s : CommitLogStore) (log : NewLocalCommitLog) : UploadStep crypto allowed s
      { s with localCommitLog := LocalCommitLogs.store s.localCommitLog log }
  | publish {s : CommitLogStore} (calls : PublishCalls) (h : allowed s calls) :
    UploadStep crypto allowed s ((publishCommitLogsToRemote crypto calls).outcome s).2
  | other {s s' : CommitLogStore} (hlocal : s'.localCommitLog = s.localCommitLog)
    (hcursor : ∀ id, s'.cursor id .commitLogUpload = s.cursor id .commitLogUpload)
    (hpublished : s'.published = s.published) : UploadStep crypto allowed s s'

/-- No entry of a group is skipped: what the cursor covers has been uploaded, if it is for the
remote log, as long as the group has its signing key whenever something is published. -/
theorem uploaded_of_covered {crypto : CommitLogCrypto} {g : Bytes} {s : CommitLogStore}
    (h : ReflTransGen (UploadStep crypto (Signs crypto g)) {} s) :
    ∀ log ∈ s.localCommitLog.rows, log.groupId = g → Publishable log →
      log.rowid ≤ s.cursor g .commitLogUpload → Uploaded crypto s log := by
  have hcovered : Covered crypto g s := by
    induction h with
    | refl => exact ⟨Nat.le_refl _, fun _ h => absurd h List.not_mem_nil⟩
    | tail _ hstep ih =>
      cases hstep with
      | store log => exact ih.store log
      | publish _ hsigns => exact ih.publish hsigns
      | other hlocal hcursor hpublished =>
        exact ih.mono hlocal (hcursor g) (by rw [hpublished, List.append_nil])
  exact hcovered.uploaded

namespace UploadSample

def crypto : CommitLogCrypto where
  encode entry := entry.groupId ++ entry.commitSequenceId.toNat.repr.toUTF8.toList
  decode _ := none
  sign privateKey message := .ok (privateKey ++ message)
  toPublicKey privateKey := .ok privateKey
  verifySignature message publicKey signature := signature = publicKey ++ message

def group (n : UInt8) : Bytes := List.replicate 16 n

def created (n : UInt8) : NewLocalCommitLog :=
  ⟨group n, 0, [], .success, 0, [1], some CommitType.groupCreation.toString⟩

def updated (n : UInt8) : NewLocalCommitLog :=
  ⟨group n, 5, [1], .success, 1, [2], some CommitType.keyUpdate.toString⟩

def calls : PublishCalls where
  conversationIdsForRemoteLogPublish := .ok [⟨group 1, none⟩, ⟨group 2, some [9]⟩]
  readConversation _ := .ok ()
  getOrCreateSigningKey conversation := .ok (if conversation.id = group 1 then some [7] else none)
  respond _ _ := .accepted
  updateCursor _ := .ok ()

def stored : CommitLogStore :=
  { localCommitLog := LocalCommitLogs.store (LocalCommitLogs.store (LocalCommitLogs.store .empty
      (created 1)) (updated 1)) (updated 2) }

def publishedStore : CommitLogStore := ((publishCommitLogsToRemote crypto calls).outcome stored).2

theorem reaches_stored (allowed : CommitLogStore → PublishCalls → Prop) :
    ReflTransGen (UploadStep crypto allowed) {} stored :=
  .tail (.tail (.tail .refl (.store _ (created 1))) (.store _ (updated 1))) (.store _ (updated 2))

end UploadSample

open UploadSample in
theorem uploaded_of_covered_updated : Uploaded crypto publishedStore ⟨updated 1, 2⟩ := by
  refine uploaded_of_covered (g := group 1) (.tail (reaches_stored _) (.publish calls ?_))
    ⟨updated 1, 2⟩ ?_ rfl ⟨by decide, by decide⟩ ?_
  · refine .inr fun conversations hlisted c hc hid => ?_
    simp [calls, hid]
  · decide +kernel
  · decide +kernel

open UploadSample in
/-- The entry that starts a chain is covered and not uploaded, and so is the entry of a conversation
without its signing key, once the entries of another one are accepted. -/
theorem covered_not_uploaded :
    ReflTransGen (UploadStep crypto fun _ _ => True) {} publishedStore ∧
      ∀ log ∈ [(⟨created 1, 1⟩ : LocalCommitLog), ⟨updated 2, 3⟩],
        log ∈ publishedStore.localCommitLog.rows ∧
        log.commitType ≠ some CommitType.removedFromGroup.toString ∧
        log.rowid ≤ publishedStore.cursor log.groupId .commitLogUpload ∧
        ¬ Uploaded crypto publishedStore log := by
  refine ⟨.tail (reaches_stored _) (.publish calls trivial), fun log hlog => ?_⟩
  have hread : log ∈ publishedStore.localCommitLog.rows ∧
      log.commitType ≠ some CommitType.removedFromGroup.toString ∧
      log.rowid ≤ publishedStore.cursor log.groupId .commitLogUpload ∧
      ∀ batch ∈ publishedStore.published, ∀ request ∈ batch,
        content request ≠ contentOf crypto log := by
    revert log
    decide +kernel
  obtain ⟨hmem, htype, hcursor, hnot⟩ := hread
  refine ⟨hmem, htype, hcursor, fun hup => ?_⟩
  obtain ⟨batch, hbatch, request, hrequest, heq⟩ := hup.exists_batch
  exact hnot batch hbatch request hrequest heq

end LibXmtp.Groups.CommitLogWorker
