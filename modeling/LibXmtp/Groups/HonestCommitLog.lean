import LibXmtp.Data.LittleEndian
import LibXmtp.Groups.CommitLogChain
import LibXmtp.Groups.CommitLogStorer
import LibXmtp.Groups.CommitLogUpload

namespace LibXmtp.Groups.CommitLogWorker

open LibXmtp.Data LibXmtp.Types LibXmtp.Db CommitLogStore Relation
open LibXmtp.Groups.CommitLogStorer (MlsGroup StagedCommits Writer WriterStep Continues Recorded
  fromCreationLogged recorded_of_run)

/-- Entries are decoded to what they were encoded from, and signatures verify under the key they
were made with. -/
structure CommitLogCrypto.Lawful (crypto : CommitLogCrypto) : Prop where
  decode_encode : ∀ entry, crypto.decode (crypto.encode entry) = some entry
  verify_sign : ∀ privateKey publicKey message signature,
    crypto.toPublicKey privateKey = .ok publicKey →
      crypto.sign privateKey message = .ok signature →
        crypto.verifySignature message publicKey signature = true

/-- A request comes back as an entry, under a sequence id of the server. -/
structure Delivers (request : PublishCommitLogRequest) (entry : CommitLogEntry) : Prop where
  serialized : entry.serializedCommitLogEntry = request.serializedCommitLogEntry
  signature : entry.signature = some request.signature

section Accept

variable (crypto : CommitLogCrypto) (g key : Bytes)

/-- No entry is skipped, each of them being the latest one that the next is compared to. -/
inductive AllAccepted : Option NewRemoteCommitLog → List CommitLogEntry → Prop
  | nil {latest : Option NewRemoteCommitLog} : AllAccepted latest []
  | cons {latest : Option NewRemoteCommitLog} {entry : CommitLogEntry}
    {plain : PlaintextCommitLogEntry} {entries : List CommitLogEntry}
    (decoded : crypto.decode entry.serializedCommitLogEntry = some plain)
    (accepted : shouldSkipRemoteCommitLogEntry crypto g latest entry plain key = false)
    (rest : AllAccepted (some (newRemoteCommitLog entry plain)) entries) :
    AllAccepted latest (entry :: entries)

variable {crypto g key}

theorem toI32_eq_applied_iff {result : CommitResult} :
    result.toI32 = CommitResult.applied ↔ result = .success := by
  cases result <;> decide

theorem follows_of_continues {previous log : LocalCommitLog} {entry : CommitLogEntry}
    (h : Continues previous.toNewLocalCommitLog log.toNewLocalCommitLog) :
    Follows (newRemoteCommitLog entry (.fromLocal previous)) (.fromLocal log) where
  commitSequenceId := by
    simpa [newRemoteCommitLog, PlaintextCommitLogEntry.fromLocal] using h.commitSequenceId
  epochNumber happlied := by
    have hsuccess := toI32_eq_applied_iff.mp happlied
    simpa [newRemoteCommitLog, PlaintextCommitLogEntry.fromLocal] using (h.applied hsuccess).1
  epochAuthenticator happlied _ := (h.applied (toI32_eq_applied_iff.mp happlied)).2
  notApplied hnot := by
    have hfailed : log.commitResult ≠ .success := fun h => hnot (toI32_eq_applied_iff.mpr h)
    obtain ⟨hnumber, hauthenticator⟩ := h.notApplied hfailed
    refine ⟨hauthenticator, ?_⟩
    simpa [newRemoteCommitLog, PlaintextCommitLogEntry.fromLocal] using hnumber

theorem verify_of_signEntry (hcrypto : CommitLogCrypto.Lawful crypto)
    {conversation : StoredGroupCommitLogPublicKey} {privateKey : Bytes}
    {plain : PlaintextCommitLogEntry} {request : PublishCommitLogRequest} {entry : CommitLogEntry}
    (hkey : crypto.toPublicKey privateKey = .ok key)
    (hsign : signEntry crypto conversation privateKey plain = .ok request)
    (hdelivers : Delivers request entry) :
    entry.serializedCommitLogEntry = crypto.encode plain ∧
      verifyCommitLogSignature crypto entry key = true := by
  simp only [signEntry, bind_eq_ok, pure_eq_ok] at hsign
  obtain ⟨signature, hsigned, publicKey, hpublic, rfl⟩ := hsign
  rw [hkey] at hpublic
  cases hpublic
  refine ⟨hdelivers.serialized, ?_⟩
  rw [verifyCommitLogSignature, hdelivers.signature, hdelivers.serialized]
  simpa using hcrypto.verify_sign _ _ _ _ hkey hsigned

theorem allAccepted_of_chain (hcrypto : CommitLogCrypto.Lawful crypto)
    {conversation : StoredGroupCommitLogPublicKey} {privateKey : Bytes}
    (hkey : crypto.toPublicKey privateKey = .ok key) {logs : List LocalCommitLog}
    (hchain : logs.IsChain fun r s => Continues r.toNewLocalCommitLog s.toNewLocalCommitLog)
    (hlogs : ∀ log ∈ logs, log.groupId = g ∧ log.commitSequenceId ≠ 0)
    {requests : List PublishCommitLogRequest} {entries : List CommitLogEntry}
    (hsign : (logs.map PlaintextCommitLogEntry.fromLocal).mapM
      (signEntry crypto conversation privateKey) = .ok requests)
    (hdelivers : List.Forall₂ Delivers requests entries) {latest : Option NewRemoteCommitLog}
    (hfirst : ∀ l ∈ latest, ∀ log ∈ logs.head?, Follows l (.fromLocal log)) :
    AllAccepted crypto g key latest entries := by
  induction logs generalizing latest requests entries with
  | nil =>
    rw [List.map_nil, List.mapM_nil, pure_eq_ok] at hsign
    subst hsign
    cases hdelivers
    exact .nil
  | cons log logs ih =>
    simp only [List.map_cons, List.mapM_cons, bind_eq_ok, pure_eq_ok] at hsign
    obtain ⟨request, hrequest, rest, hrest, rfl⟩ := hsign
    obtain ⟨entry, entries', hentry, hentries, rfl⟩ := List.forall₂_cons_left_iff.mp hdelivers
    obtain ⟨hserialized, hverified⟩ := verify_of_signEntry hcrypto hkey hrequest hentry
    obtain ⟨hgroup, hzero⟩ := hlogs log List.mem_cons_self
    refine @AllAccepted.cons _ _ _ _ _ (.fromLocal log) _ ?_ ?_ ?_
    · rw [hserialized, hcrypto.decode_encode]
    · refine shouldSkip_eq_false_iff.mpr ⟨hgroup, ?_, hverified, fun l hl => hfirst l hl log rfl⟩
      intro h
      have hint := congrArg UInt64.toInt64 h
      exact hzero (by simpa [PlaintextCommitLogEntry.fromLocal] using hint)
    · refine ih hchain.tail (fun l hl => hlogs l (List.mem_cons_of_mem _ hl)) hrest hentries ?_
      intro l hl next hnext
      cases hl
      exact follows_of_continues (hchain.rel_head? hnext)

end Accept

section Publish

variable {crypto : CommitLogCrypto} {calls : PublishCalls} {s : CommitLogStore}

theorem chain_unpublished {w : Writer} (h : Recorded w) (hlogs : s.localCommitLog = w.logs)
    {conversation : StoredGroupCommitLogPublicKey} (hid : conversation.id = w.group.groupId) :
    (unpublished s conversation).IsChain fun r s =>
      Continues r.toNewLocalCommitLog s.toNewLocalCommitLog := by
  have hown : LocalCommitLogs.getGroupLogs s.localCommitLog conversation.id = w.ownLogs := by
    rw [hlogs, hid]
    rfl
  rw [unpublished, LocalCommitLogs.after_eq_filter, hown]
  have hrowids : w.ownLogs.Pairwise fun r s => r.rowid < s.rowid :=
    w.logs.pairwise_select _
  have hids : w.ownLogs.Pairwise fun r s =>
      r.commitSequenceId.toUInt64 < s.commitSequenceId.toUInt64 := by
    refine (List.isChain_iff_pairwise (R := fun r s : LocalCommitLog =>
      r.commitSequenceId.toUInt64 < s.commitSequenceId.toUInt64)).mp ?_
    exact h.chain.imp fun _ _ hcontinues => hcontinues.commitSequenceId
  refine h.chain.suffix (filter_isSuffix ?_)
  refine (hrowids.and hids).imp fun {r s} hrs hcond => ?_
  simp only [Bool.and_eq_true, decide_eq_true_eq] at hcond ⊢
  refine ⟨Nat.lt_trans hcond.1 hrs.1, fun hzero => ?_⟩
  have hlt := hrs.2
  rw [hzero] at hlt
  exact absurd hlt (UInt64.not_lt.mpr UInt64.zero_le)

theorem entriesToPublish_of_stays {w : Writer} (h : Recorded w) (hlogs : s.localCommitLog = w.logs)
    {conversation : StoredGroupCommitLogPublicKey} (hid : conversation.id = w.group.groupId) :
    entriesToPublish (unpublished s conversation) =
      (unpublished s conversation).map PlaintextCommitLogEntry.fromLocal := by
  rw [entriesToPublish, List.filter_eq_self.mpr]
  intro log hlog
  rw [unpublished, LocalCommitLogs.mem_after] at hlog
  have hown : log ∈ w.ownLogs := by
    rw [Writer.ownLogs, LocalCommitLogs.getGroupLogs, RowLog.mem_select]
    exact ⟨hlogs ▸ hlog.1, decide_eq_true (hid ▸ hlog.2.1)⟩
  exact decide_eq_true (h.stays log hown)

theorem groupId_of_signEntry {conversation : StoredGroupCommitLogPublicKey} {privateKey : Bytes}
    {entries : List PlaintextCommitLogEntry} {requests : List PublishCommitLogRequest}
    (h : entries.mapM (signEntry crypto conversation privateKey) = .ok requests) :
    ∀ request ∈ requests, request.groupId = conversation.id := by
  intro request hrequest
  have hcontent := map_content_of_mapM_signEntry h
  have hmem : content request ∈ requests.map content := List.mem_map_of_mem hrequest
  rw [hcontent] at hmem
  obtain ⟨_, _, heq⟩ := List.mem_map.mp hmem
  exact (congrArg Prod.fst heq).symm

theorem Signed.groupId {conversation : StoredGroupCommitLogPublicKey}
    {prepared : ConversationCursorInfo × List PublishCommitLogRequest}
    (h : Signed crypto calls s conversation prepared) :
    ∀ request ∈ prepared.2, request.groupId = conversation.id := by
  have hsigned := h.signed
  rw [signGroupLogs, bind_eq_ok] at hsigned
  obtain ⟨key, -, hrequests⟩ := hsigned
  cases key with
  | none =>
    rw [pure_eq_ok] at hrequests
    rw [← hrequests]
    exact fun _ h => absurd h List.not_mem_nil
  | some privateKey => exact groupId_of_signEntry hrequests

theorem requests_of_group {conversations : List StoredGroupCommitLogPublicKey}
    (hdistinct : (conversations.map StoredGroupCommitLogPublicKey.id).Nodup)
    {prepared : List (Option (ConversationCursorInfo × List PublishCommitLogRequest))}
    (h : List.Forall₂ (fun c p => ∀ q ∈ p, Signed crypto calls s c q) conversations prepared)
    (g : Bytes) :
    (prepared.reduceOption.map Prod.snd).flatten.filter (·.groupId = g) = [] ∨
      ∃ c ∈ conversations, c.id = g ∧ ∃ q, Signed crypto calls s c q ∧
        (prepared.reduceOption.map Prod.snd).flatten.filter (·.groupId = g) = q.2 := by
  induction h with
  | nil => exact .inl rfl
  | @cons c p conversations prepared hp hrest ih =>
    rw [List.map_cons, List.nodup_cons] at hdistinct
    have hothers := ih hdistinct.2
    cases p with
    | none =>
      rw [List.reduceOption_cons_of_none]
      rcases hothers with hnil | ⟨c', hc', hcid, q, hq, heq⟩
      · exact .inl hnil
      · exact .inr ⟨c', List.mem_cons_of_mem _ hc', hcid, q, hq, heq⟩
    | some q =>
      rw [List.reduceOption_cons_of_some, List.map_cons, List.flatten_cons, List.filter_append]
      have hsigned := hp q rfl
      by_cases hg : c.id = g
      · have hown : q.2.filter (·.groupId = g) = q.2 := by
          rw [List.filter_eq_self]
          intro request hrequest
          exact decide_eq_true ((hsigned.groupId request hrequest).trans hg)
        have hnone : (prepared.reduceOption.map Prod.snd).flatten.filter (·.groupId = g) = [] := by
          rcases hothers with hnil | ⟨c', hc', hcid, -⟩
          · exact hnil
          · exact absurd (hg.trans hcid.symm ▸ List.mem_map_of_mem hc') hdistinct.1
        rw [hown, hnone, List.append_nil]
        exact .inr ⟨c, List.mem_cons_self, hg, q, hsigned, rfl⟩
      · have hother : q.2.filter (·.groupId = g) = [] := by
          rw [List.filter_eq_nil_iff]
          intro request hrequest heq
          exact hg ((hsigned.groupId request hrequest).symm.trans (of_decide_eq_true heq))
        rw [hother, List.nil_append]
        rcases hothers with hnil | ⟨c', hc', hcid, q, hq, heq⟩
        · exact .inl hnil
        · exact .inr ⟨c', List.mem_cons_of_mem _ hc', hcid, q, hq, heq⟩

/-- What a member that created a group and stayed in it publishes of its log is accepted from the
first entry on, by whoever knows the key it is signed with. -/
theorem allAccepted_of_run {σ : Type} {commits : StagedCommits σ} (hmls : commits.Advances)
    (hcrypto : CommitLogCrypto.Lawful crypto) {logs₀ logs₁ : LocalCommitLogs} {group : MlsGroup}
    (hnew : ∀ log ∈ logs₀.rows, log.groupId ≠ group.groupId)
    (hcreated : fromCreationLogged logs₀ group = .ok logs₁) {w : Writer}
    (hrun : ReflTransGen (WriterStep commits) ⟨group, logs₁, 0⟩ w)
    (hlogs : s.localCommitLog = w.logs) {conversations : List StoredGroupCommitLogPublicKey}
    (hdistinct : (conversations.map StoredGroupCommitLogPublicKey.id).Nodup)
    {infos : List ConversationCursorInfo} {requests : List PublishCommitLogRequest}
    {s' : CommitLogStore}
    (hprepared : (preparePublishCommitLogInfo crypto calls conversations).outcome s =
      (.ok (infos, requests), s')) {key : Bytes}
    (hkey : ∀ c ∈ conversations, c.id = group.groupId → ∀ privateKey,
      calls.getOrCreateSigningKey c = .ok (some privateKey) →
        crypto.toPublicKey privateKey = .ok key)
    {entries : List CommitLogEntry}
    (hdelivered : List.Forall₂ Delivers (requests.filter (·.groupId = group.groupId)) entries) :
    AllAccepted crypto group.groupId key none entries := by
  obtain ⟨hrecorded, hid⟩ := recorded_of_run hmls hnew hcreated hrun
  obtain ⟨-, hout⟩ :=
    (triple_preparePublishCommitLogInfo crypto calls s conversations).of_outcome (.refl s) hprepared
  obtain ⟨prepared, hsigned, heq⟩ := hout _ rfl
  obtain ⟨-, rfl⟩ := Prod.mk.inj heq
  rcases requests_of_group hdistinct hsigned group.groupId with
    hnil | ⟨c, hc, hcid, q, hq, hrequests⟩
  · rw [hnil] at hdelivered
    cases hdelivered
    exact .nil
  · rw [hrequests] at hdelivered
    have hcw : c.id = w.group.groupId := hcid.trans hid.symm
    have hsign := hq.signed
    rw [signGroupLogs, bind_eq_ok] at hsign
    obtain ⟨privateKey, hprivate, hsign⟩ := hsign
    cases privateKey with
    | none =>
      rw [pure_eq_ok] at hsign
      rw [← hsign] at hdelivered
      cases hdelivered
      exact .nil
    | some privateKey =>
      simp only [entriesToPublish_of_stays hrecorded hlogs hcw] at hsign
      refine allAccepted_of_chain hcrypto (hkey c hc hcid privateKey hprivate)
        (chain_unpublished hrecorded hlogs hcw) (fun log hlog => ?_) hsign hdelivered
        fun l hl => absurd hl (by simp)
      rw [unpublished, LocalCommitLogs.mem_after] at hlog
      exact ⟨hlog.2.1.trans hcid, hlog.2.2.2⟩

end Publish

namespace HonestSample

def delimit : Bytes → Bytes
  | [] => [0]
  | b :: bytes => 1 :: b :: delimit bytes

def undelimit : Bytes → Option (Bytes × Bytes)
  | [] => none
  | [b] => if b = 0 then some ([], []) else none
  | b :: b' :: rest =>
    if b = 0 then some ([], b' :: rest) else (undelimit rest).map fun r => (b' :: r.1, r.2)

theorem undelimit_delimit (bytes rest : Bytes) :
    undelimit (delimit bytes ++ rest) = some (bytes, rest) := by
  induction bytes with
  | nil => cases rest <;> simp [delimit, undelimit]
  | cons b bytes ih => simp [delimit, undelimit, ih]

def encode (entry : PlaintextCommitLogEntry) : Bytes :=
  delimit entry.groupId ++ (delimit (toLittleEndian 8 entry.commitSequenceId.toNat) ++
    (delimit entry.lastEpochAuthenticator ++
      (delimit (toLittleEndian 4 entry.commitResult.toUInt32.toNat) ++
        (delimit (toLittleEndian 8 entry.appliedEpochNumber.toNat) ++
          (delimit entry.appliedEpochAuthenticator ++ [])))))

def decode (bytes : Bytes) : Option PlaintextCommitLogEntry := do
  let (groupId, rest) ← undelimit bytes
  let (commitSequenceId, rest) ← undelimit rest
  let (lastEpochAuthenticator, rest) ← undelimit rest
  let (commitResult, rest) ← undelimit rest
  let (appliedEpochNumber, rest) ← undelimit rest
  let (appliedEpochAuthenticator, _) ← undelimit rest
  return {
    groupId
    commitSequenceId := .ofNat (ofLittleEndian commitSequenceId)
    lastEpochAuthenticator
    commitResult := (UInt32.ofNat (ofLittleEndian commitResult)).toInt32
    appliedEpochNumber := .ofNat (ofLittleEndian appliedEpochNumber)
    appliedEpochAuthenticator }

def crypto : CommitLogCrypto where
  encode
  decode
  sign privateKey message := .ok (privateKey ++ message)
  toPublicKey privateKey := .ok privateKey
  verifySignature message publicKey signature := signature = publicKey ++ message

theorem ofNat_ofLittleEndian (n : UInt64) :
    UInt64.ofNat (ofLittleEndian (toLittleEndian 8 n.toNat)) = n := by
  rw [ofLittleEndian_toLittleEndian, show 256 ^ 8 = 2 ^ 64 from rfl, Nat.mod_eq_of_lt n.toNat_lt,
    UInt64.ofNat_toNat]

theorem toInt32_ofLittleEndian (n : Int32) :
    (UInt32.ofNat (ofLittleEndian (toLittleEndian 4 n.toUInt32.toNat))).toInt32 = n := by
  rw [ofLittleEndian_toLittleEndian, show 256 ^ 4 = 2 ^ 32 from rfl,
    Nat.mod_eq_of_lt n.toUInt32.toNat_lt, UInt32.ofNat_toNat, Int32.toInt32_toUInt32]

theorem lawful_crypto : CommitLogCrypto.Lawful crypto where
  decode_encode entry := by
    show decode (encode entry) = some entry
    simp only [decode, encode, undelimit_delimit, Option.bind_eq_bind, Option.bind_some,
      ofNat_ofLittleEndian, toInt32_ofLittleEndian]
    rfl
  verify_sign privateKey publicKey message signature hpublic hsign := by
    cases hpublic
    cases hsign
    simp [crypto]

def commits : StagedCommits Bytes where
  selfRemoved _ := false
  mergeStagedCommit group staged :=
    .ok { group with epoch := group.epoch + 1, epochAuthenticator := staged }

theorem advances_commits : commits.Advances where
  groupId group staged merged h := by
    cases h
    rfl
  epoch group staged merged h := by
    cases h
    rfl

def group : MlsGroup := ⟨List.replicate 16 1, 0, [10]⟩

def keyUpdate : ValidatedCommit where
  actor := ⟨"alice", [1], true, false, true⟩
  proposers := []
  addedInboxes := []
  removedInboxes := []
  readdedInstallations := ∅
  metadataValidationInfo := {}
  installationsChanged := false
  permissionsChanged := false
  dmMembers := none

def logged (sequenceId : Int64) (last : Bytes) (result : CommitResult) (number : Int64)
    (applied : Bytes) (commitType : Option CommitType) : NewLocalCommitLog :=
  ⟨group.groupId, sequenceId, last, result, number, applied, commitType.map CommitType.toString⟩

def otherLog : NewLocalCommitLog :=
  ⟨List.replicate 16 2, 6, [1], .success, 3, [2], some CommitType.keyUpdate.toString⟩

def created : LocalCommitLogs :=
  LocalCommitLogs.store .empty (logged 0 [] .success 0 [10] (some .groupCreation))

/-- A commit of a wrong epoch first, one that is merged, one of another group, one that is invalid
and one that is merged again. -/
def logs : LocalCommitLogs :=
  [logged 3 [10] .wrongEpoch 0 [10] none, logged 5 [10] .success 1 [11] (some .keyUpdate), otherLog,
    logged 7 [11] .invalid 1 [11] none, logged 9 [11] .success 2 [12] (some .keyUpdate)].foldl
      LocalCommitLogs.store created

theorem reaches_logs : ReflTransGen (WriterStep commits) ⟨group, created, 0⟩
    ⟨⟨group.groupId, 2, [12]⟩, logs, 9⟩ := by
  refine .tail (.tail (.tail (.tail (.single (@WriterStep.failed _ _ _ 3 4 (.futureEpoch 4 0) _
    (by decide) rfl)) (@WriterStep.merged _ _ _ [11] keyUpdate 5 _ _ rfl (by decide) rfl))
    (@WriterStep.otherGroup _ _ _ otherLog (by decide))) (@WriterStep.failed _ _ _ 7 1
      .commitValidation _ (by decide) rfl)) (@WriterStep.merged _ _ _ [12] keyUpdate 9 _ _ rfl
        (by decide) rfl)

def calls : PublishCalls where
  conversationIdsForRemoteLogPublish := .ok [⟨group.groupId, none⟩]
  readConversation _ := .ok ()
  getOrCreateSigningKey _ := .ok (some [7])
  respond _ _ := .accepted
  updateCursor _ := .ok ()

def prepared : Except CommitLogError (List ConversationCursorInfo × List PublishCommitLogRequest) ×
    CommitLogStore :=
  (preparePublishCommitLogInfo crypto calls [⟨group.groupId, none⟩]).outcome
    { localCommitLog := logs }

def requests : List PublishCommitLogRequest :=
  match prepared.1 with
  | .ok out => out.2
  | .error _ => []

def deliver (request : PublishCommitLogRequest) : CommitLogEntry :=
  ⟨1, request.serializedCommitLogEntry, some request.signature⟩

end HonestSample

open HonestSample in
theorem allAccepted_of_run_sample :
    requests.length = 4 ∧ AllAccepted crypto group.groupId [7] none (requests.map deliver) := by
  have hlength : requests.length = 4 := by decide +kernel
  have hgroup : requests.filter (·.groupId = group.groupId) = requests := by decide +kernel
  refine ⟨hlength, ?_⟩
  rcases hprepared : prepared with ⟨r, s'⟩
  cases r with
  | error e => simp [requests, hprepared] at hlength
  | ok out =>
    have hrequests : requests = out.2 := by simp [requests, hprepared]
    refine allAccepted_of_run advances_commits lawful_crypto
      (fun _ h => absurd h List.not_mem_nil) rfl reaches_logs rfl (by simp) hprepared
      (fun c _ _ privateKey hkey => ?_) ?_
    · cases hkey
      rfl
    · rw [← hrequests, hgroup, List.forall₂_map_right_iff, List.forall₂_same]
      exact fun request _ => ⟨rfl, rfl⟩

end LibXmtp.Groups.CommitLogWorker
