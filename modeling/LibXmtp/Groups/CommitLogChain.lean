import LibXmtp.Data.Result
import LibXmtp.Groups.CommitLog
import Mathlib.Logic.Relation

namespace LibXmtp.Groups.CommitLogWorker

open LibXmtp.Data LibXmtp.Types LibXmtp.Db CommitLogStore Relation
open LibXmtp.Data.Session (Triple onOk)

def savedLogs (s : CommitLogStore) (g : Bytes) : List NewRemoteCommitLog :=
  (RemoteCommitLogs.ofGroup s.remoteCommitLog g).map RemoteCommitLog.toNewRemoteCommitLog

def consensusKey (s : CommitLogStore) (g : Bytes) : Option Bytes :=
  (s.groups.fetch g).bind CommitLogGroup.commitLogPublicKey

section Chain

variable (crypto : CommitLogCrypto) (g key : Bytes)

structure Valid (entry : CommitLogEntry) (plain : PlaintextCommitLogEntry) : Prop where
  decoded : crypto.decode entry.serializedCommitLogEntry = some plain
  groupId : plain.groupId = g
  commitSequenceId : plain.commitSequenceId ≠ 0
  signed : verifyCommitLogSignature crypto entry key = true

/-- An entry that follows a saved one: a commit that was applied starts from the epoch the saved one
ends in, one that was not stays in it. -/
structure Follows (latest : NewRemoteCommitLog) (plain : PlaintextCommitLogEntry) : Prop where
  commitSequenceId : latest.commitSequenceId.toUInt64 < plain.commitSequenceId
  epochNumber : plain.commitResult = CommitResult.applied →
    plain.appliedEpochNumber.toInt64 = latest.appliedEpochNumber + 1
  epochAuthenticator : plain.commitResult = CommitResult.applied →
    latest.appliedEpochAuthenticator ≠ [] →
      plain.lastEpochAuthenticator = latest.appliedEpochAuthenticator
  notApplied : plain.commitResult ≠ CommitResult.applied →
    plain.appliedEpochAuthenticator = latest.appliedEpochAuthenticator ∧
      plain.appliedEpochNumber.toInt64 = latest.appliedEpochNumber

inductive Chain : Option NewRemoteCommitLog → List NewRemoteCommitLog → Prop
  | nil {latest : Option NewRemoteCommitLog} : Chain latest []
  | cons {latest : Option NewRemoteCommitLog} {entry : CommitLogEntry}
    {plain : PlaintextCommitLogEntry} {rest : List NewRemoteCommitLog}
    (valid : Valid crypto g key entry plain) (follows : ∀ l ∈ latest, Follows l plain)
    (chain : Chain (some (newRemoteCommitLog entry plain)) rest) :
    Chain latest (newRemoteCommitLog entry plain :: rest)

def Latest : Option NewRemoteCommitLog → List NewRemoteCommitLog → Prop
  | none, logs => logs = []
  | some l, logs => l ∈ logs ∧ ∀ m ∈ logs, m.logSequenceId.toInt ≤ l.logSequenceId.toInt

/-- Entries that were saved from one response after the other: each response goes on from the latest
entry that had been saved. -/
inductive Saved : List NewRemoteCommitLog → Prop
  | nil : Saved []
  | response {logs page : List NewRemoteCommitLog} {latest : Option NewRemoteCommitLog}
    (saved : Saved logs) (hlatest : Latest latest logs)
    (chain : Chain crypto g key latest page) : Saved (logs ++ page)

variable {crypto g key}

theorem Chain.append {latest : Option NewRemoteCommitLog} {xs ys : List NewRemoteCommitLog}
    (h : Chain crypto g key latest xs) (h' : Chain crypto g key (xs.getLast?.or latest) ys) :
    Chain crypto g key latest (xs ++ ys) := by
  induction h with
  | nil => simpa using h'
  | cons valid follows _ ih =>
    refine .cons valid follows (ih ?_)
    rw [List.getLast?_cons] at h'
    simp only [Option.some_or] at h'
    rename_i rest _
    cases hrest : rest.getLast? with
    | none => simpa [hrest] using h'
    | some last => simpa [hrest] using h'

theorem Chain.lt_of_latest {latest : Option NewRemoteCommitLog} {logs : List NewRemoteCommitLog}
    (h : Chain crypto g key latest logs) : ∀ l ∈ latest, ∀ m ∈ logs,
      l.commitSequenceId.toUInt64 < m.commitSequenceId.toUInt64 := by
  induction h with
  | nil => exact fun _ _ _ h => absurd h List.not_mem_nil
  | @cons latest entry plain rest valid follows chain ih =>
    intro l hl m hm
    have hfirst : l.commitSequenceId.toUInt64 <
        (newRemoteCommitLog entry plain).commitSequenceId.toUInt64 := by
      simpa [newRemoteCommitLog] using (follows l hl).commitSequenceId
    rcases List.mem_cons.mp hm with rfl | hm
    · exact hfirst
    · exact UInt64.lt_trans hfirst (ih _ rfl m hm)

theorem Chain.pairwise {latest : Option NewRemoteCommitLog} {logs : List NewRemoteCommitLog}
    (h : Chain crypto g key latest logs) :
    logs.Pairwise fun l m => l.commitSequenceId.toUInt64 < m.commitSequenceId.toUInt64 := by
  induction h with
  | nil => exact .nil
  | cons valid follows chain ih => exact .cons (chain.lt_of_latest _ rfl) ih

theorem Saved.chain {logs : List NewRemoteCommitLog} (h : Saved crypto g key logs)
    (hascending : logs.Pairwise fun l m => l.logSequenceId.toInt < m.logSequenceId.toInt) :
    Chain crypto g key none logs := by
  induction h with
  | nil => exact .nil
  | @response logs page latest _ hlatest hpage ih =>
    have hlogs := (List.pairwise_append.mp hascending).1
    apply (ih hlogs).append
    have hlast : logs.getLast?.or none = latest := by
      rw [Option.or_none]
      cases latest with
      | none =>
        rw [show logs = [] from hlatest]
        rfl
      | some l =>
        obtain ⟨hmem, hmax⟩ := hlatest
        obtain ⟨init, last, rfl⟩ := List.eq_nil_or_concat' logs |>.resolve_left
          (List.ne_nil_of_mem hmem)
        rw [List.getLast?_concat]
        have hle := hmax last (List.mem_append_right _ List.mem_cons_self)
        rcases List.mem_append.mp hmem with hin | hin
        · have hlt := (List.pairwise_append.mp hlogs).2.2 l hin last List.mem_cons_self
          omega
        · rw [List.mem_singleton.mp hin]
    rw [hlast]
    exact hpage

theorem follows_iff {latest : NewRemoteCommitLog} {plain : PlaintextCommitLogEntry} :
    Follows latest plain ↔ latest.commitSequenceId.toUInt64 < plain.commitSequenceId ∧
      (plain.commitResult = CommitResult.applied →
        plain.appliedEpochNumber.toInt64 = latest.appliedEpochNumber + 1) ∧
      (plain.commitResult = CommitResult.applied → latest.appliedEpochAuthenticator ≠ [] →
        plain.lastEpochAuthenticator = latest.appliedEpochAuthenticator) ∧
      (plain.commitResult ≠ CommitResult.applied →
        plain.appliedEpochAuthenticator = latest.appliedEpochAuthenticator ∧
          plain.appliedEpochNumber.toInt64 = latest.appliedEpochNumber) :=
  ⟨fun h => ⟨h.1, h.2, h.3, h.4⟩, fun h => ⟨h.1, h.2.1, h.2.2.1, h.2.2.2⟩⟩

theorem shouldSkip_eq_false_iff {latest : Option NewRemoteCommitLog} {entry : CommitLogEntry}
    {plain : PlaintextCommitLogEntry} :
    shouldSkipRemoteCommitLogEntry crypto g latest entry plain key = false ↔
      plain.groupId = g ∧ plain.commitSequenceId ≠ 0 ∧
        verifyCommitLogSignature crypto entry key = true ∧ ∀ l ∈ latest, Follows l plain := by
  unfold shouldSkipRemoteCommitLogEntry
  by_cases hgroup : plain.groupId = g
  · by_cases hzero : plain.commitSequenceId = 0
    · simp [hzero]
    · cases hverify : verifyCommitLogSignature crypto entry key with
      | false => simp
      | true =>
        cases latest with
        | none => simp [hgroup, hzero]
        | some l =>
          by_cases happlied : plain.commitResult = CommitResult.applied <;>
            simp [hgroup, hzero, happlied, follows_iff, UInt64.not_le]
          tauto
  · simp [hgroup]

end Chain

section Response

variable {crypto : CommitLogCrypto} {calls : SaveCalls} {g key : Bytes} {s₀ s : CommitLogStore}

theorem savedLogs_store (log : NewRemoteCommitLog) (g : Bytes) (s : CommitLogStore) :
    savedLogs { s with remoteCommitLog := RemoteCommitLogs.store s.remoteCommitLog log } g =
      if log.groupId = g then savedLogs s g ++ [log] else savedLogs s g := by
  simp only [savedLogs, RemoteCommitLogs.ofGroup_store]
  split
  · simp
  · rfl

theorem savedLogs_congr (h : s.remoteCommitLog = s₀.remoteCommitLog) (g : Bytes) :
    savedLogs s g = savedLogs s₀ g := by
  rw [savedLogs, savedLogs, h]

/-- What has been done of a response: a chain of entries is saved, and nothing of another group. -/
structure Continued (crypto : CommitLogCrypto) (g key : Bytes) (s₀ : CommitLogStore)
    (first latest : Option NewRemoteCommitLog) (s : CommitLogStore) : Prop where
  page : ∃ page, savedLogs s g = savedLogs s₀ g ++ page ∧ Chain crypto g key first page ∧
    latest = page.getLast?.or first
  others : ∀ g', g' ≠ g → savedLogs s g' = savedLogs s₀ g'
  groups : s.groups = s₀.groups

variable {first : Option NewRemoteCommitLog}

theorem Continued.store {latest : Option NewRemoteCommitLog}
    (h : Continued crypto g key s₀ first latest s) {entry : CommitLogEntry}
    {plain : PlaintextCommitLogEntry} (hvalid : Valid crypto g key entry plain)
    (hfollows : ∀ l ∈ latest, Follows l plain) :
    Continued crypto g key s₀ first (some (newRemoteCommitLog entry plain))
      { s with remoteCommitLog :=
          RemoteCommitLogs.store s.remoteCommitLog (newRemoteCommitLog entry plain) } := by
  obtain ⟨page, hsaved, hchain, hlatest⟩ := h.page
  refine ⟨⟨page ++ [newRemoteCommitLog entry plain], ?_, ?_, ?_⟩, fun g' hg' => ?_, h.groups⟩
  · rw [savedLogs_store, if_pos (show (newRemoteCommitLog entry plain).groupId = g from
      hvalid.groupId), hsaved, List.append_assoc]
  · exact hchain.append (.cons hvalid (hlatest ▸ hfollows) .nil)
  · rw [List.getLast?_concat]
    rfl
  · rw [savedLogs_store, if_neg fun heq => hg' (heq.symm.trans hvalid.groupId), h.others g' hg']

def EndOf (crypto : CommitLogCrypto) (g key : Bytes) (s₀ : CommitLogStore)
    (first : Option NewRemoteCommitLog) (s : CommitLogStore) : Prop :=
  ∃ latest, Continued crypto g key s₀ first latest s

theorem triple_saveRemoteCommitLogEntry (saved : Option NewRemoteCommitLog × Nat)
    (entry : CommitLogEntry) :
    Triple (Continued crypto g key s₀ first saved.1)
      (saveRemoteCommitLogEntry crypto calls g key saved entry)
      (onOk (fun saved => Continued crypto g key s₀ first saved.1)
        fun (_ : Except CommitLogError (Option NewRemoteCommitLog × Nat)) =>
          EndOf crypto g key s₀ first) := by
  unfold saveRemoteCommitLogEntry
  cases hdecode : crypto.decode entry.serializedCommitLogEntry with
  | none => exact .pure fun s hs => hs
  | some plain =>
    simp only
    split
    · exact .pure fun s hs => hs
    · rename_i hskip
      obtain ⟨hgroup, hzero, hsigned, hfollows⟩ :=
        shouldSkip_eq_false_iff.mp (Bool.eq_false_iff.mpr hskip)
      apply Triple.ofExcept_bind fun e s hs => ⟨saved.1, hs⟩
      intro _ _
      apply Triple.ofExcept_bind fun e s hs => ⟨saved.1, hs⟩
      intro _ _
      exact ⟨fun s hs => hs.store ⟨hdecode, hgroup, hzero, hsigned⟩ hfollows⟩

theorem latest_getLatestRemoteLogForGroup (s : CommitLogStore) (g : Bytes) :
    Latest ((RemoteCommitLogs.getLatestRemoteLogForGroup s.remoteCommitLog g).map
      RemoteCommitLog.toNewRemoteCommitLog) (savedLogs s g) := by
  cases h : RemoteCommitLogs.getLatestRemoteLogForGroup s.remoteCommitLog g with
  | none =>
    have hnil : RemoteCommitLogs.ofGroup s.remoteCommitLog g = [] := by
      by_contra hne
      have hsome := List.isSome_maxOn?_iff (f := fun log : RemoteCommitLog => log.logSequenceId.toInt)
        |>.mpr hne
      rw [RemoteCommitLogs.getLatestRemoteLogForGroup] at h
      rw [h] at hsome
      cases hsome
    simp [Latest, savedLogs, hnil]
  | some l =>
    refine ⟨List.mem_map_of_mem (List.maxOn?_mem h), fun m hm => ?_⟩
    obtain ⟨row, hrow, rfl⟩ := List.mem_map.mp hm
    have hle := List.le_apply_get_maxOn?_of_mem (f := fun log : RemoteCommitLog =>
      log.logSequenceId.toInt) hrow
    rw [RemoteCommitLogs.getLatestRemoteLogForGroup] at h
    simpa only [h, Option.get_some] using hle

variable (crypto calls g key) in
theorem triple_saveRemoteCommitLogEntries (entries : List CommitLogEntry) (s₀ : CommitLogStore) :
    Triple (fun s => s = s₀) (saveRemoteCommitLogEntries crypto calls g key entries) fun _ =>
      EndOf crypto g key s₀ ((RemoteCommitLogs.getLatestRemoteLogForGroup s₀.remoteCommitLog g).map
        RemoteCommitLog.toNewRemoteCommitLog) := by
  have hstart (first : Option NewRemoteCommitLog) : Continued crypto g key s₀ first first s₀ :=
    ⟨⟨[], by simp, .nil, rfl⟩, fun _ _ => rfl, rfl⟩
  apply Triple.ofExcept_bind
  · rintro e s rfl
    exact ⟨_, hstart _⟩
  · intro _ _
    apply Triple.read_bind
    rintro s rfl
    apply Triple.bind (R := fun saved => Continued crypto g key s _ saved.1)
    · apply ((Triple.foldlM fun entry _ saved => triple_saveRemoteCommitLogEntry saved entry)
        (_, 0)).consequence
      · rintro t rfl
        exact hstart _
      · intro r t ht
        cases r <;> exact ht
    · intro saved
      exact .pure fun t ht => ⟨saved.1, ht⟩

end Response

section Run

variable {crypto : CommitLogCrypto} {calls : SaveCalls} {s₀ s : CommitLogStore}

def Sound (crypto : CommitLogCrypto) (s : CommitLogStore) : Prop :=
  ∀ g, savedLogs s g ≠ [] →
    ∃ key, consensusKey s g = some key ∧ Saved crypto g key (savedLogs s g)

def KeepsKeys (s₀ s : CommitLogStore) : Prop :=
  ∀ g key, consensusKey s₀ g = some key → consensusKey s g = some key

theorem Sound.mono (h : Sound crypto s₀) (hkeys : KeepsKeys s₀ s)
    (hremote : s.remoteCommitLog = s₀.remoteCommitLog) : Sound crypto s := by
  intro g hne
  rw [savedLogs_congr hremote] at hne ⊢
  obtain ⟨key, hkey, hsaved⟩ := h g hne
  exact ⟨key, hkeys g key hkey, hsaved⟩

theorem Sound.continued (h : Sound crypto s₀) {g key : Bytes} (hkey : consensusKey s₀ g = some key)
    {first : Option NewRemoteCommitLog} (hfirst : Latest first (savedLogs s₀ g))
    (hend : EndOf crypto g key s₀ first s) : Sound crypto s := by
  obtain ⟨latest, ⟨page, hpage, hchain, _⟩, hothers, hgroups⟩ := hend
  have hkeys (g' : Bytes) : consensusKey s g' = consensusKey s₀ g' := by
    rw [consensusKey, consensusKey, hgroups]
  intro g' hne
  rw [hkeys]
  by_cases heq : g' = g
  · subst heq
    refine ⟨key, hkey, ?_⟩
    rw [hpage]
    have hsaved : Saved crypto g' key (savedLogs s₀ g') := by
      by_cases hnil : savedLogs s₀ g' = []
      · rw [hnil]
        exact .nil
      · obtain ⟨key', hkey', hsaved⟩ := h g' hnil
        rw [hkey] at hkey'
        exact Option.some.inj hkey' ▸ hsaved
    exact .response hsaved hfirst hchain
  · rw [hothers g' heq] at hne ⊢
    exact h g' hne

def Kept (crypto : CommitLogCrypto) (s₀ s : CommitLogStore) : Prop :=
  Sound crypto s ∧ KeepsKeys s₀ s

theorem kept_lastCursor (id : Bytes) (kind : EntityKind) :
    Triple (Kept crypto s₀) (lastCursor id kind) fun _ => Kept crypto s₀ where
  run _ hs := ⟨hs.1.mono (fun _ _ h => h) rfl, hs.2⟩

theorem kept_updateDownloadCursor (g : Bytes) (entries : List CommitLogEntry) :
    Triple (Kept crypto s₀) (updateDownloadCursor calls g entries) fun _ => Kept crypto s₀ := by
  unfold updateDownloadCursor
  cases entries.getLast? with
  | none => exact .pure fun s hs => hs
  | some last =>
    apply Triple.ofExcept_bind fun e s hs => hs
    intro _ _
    refine ⟨fun t hs => ?_⟩
    rw [Session.outcome_modify]
    split
    · exact ⟨hs.1.mono (fun _ _ h => h) rfl, hs.2⟩
    · exact hs

theorem eq_of_groupIdTryFrom {bytes g : Bytes} (h : groupIdTryFrom bytes = .ok g) : bytes = g := by
  unfold groupIdTryFrom at h
  split at h
  · exact Except.ok.inj h
  · cases h

theorem kept_saveRemoteCommitLogEntriesAndUpdateCursors (response : QueryCommitLogResponse)
    (key : Option Bytes) :
    Triple (fun s => Kept crypto s₀ s ∧ ∀ k ∈ key, consensusKey s response.groupId = some k)
      (saveRemoteCommitLogEntriesAndUpdateCursors crypto calls response key)
      fun _ => Kept crypto s₀ := by
  apply Triple.ofExcept_bind fun e s hs => hs.1
  intro g hg
  have hrest (n : Nat) : Triple (Kept crypto s₀)
      (do updateDownloadCursor calls g response.commitLogEntries; return n)
      fun _ => Kept crypto s₀ :=
    (kept_updateDownloadCursor g _).bind_const fun _ => .pure fun _ hs => hs
  cases key with
  | none => exact Triple.bind_const (.pure fun s hs => hs.1) hrest
  | some key =>
    refine Triple.bind_const ⟨fun s hs => ?_⟩ hrest
    obtain ⟨⟨hsound, hkeeps⟩, hkey⟩ := hs
    have hknown : consensusKey s g = some key := eq_of_groupIdTryFrom hg ▸ hkey key rfl
    have hend := (triple_saveRemoteCommitLogEntries crypto calls g key
      response.commitLogEntries s).run s rfl
    refine ⟨hsound.continued hknown (latest_getLatestRemoteLogForGroup s g) hend, ?_⟩
    obtain ⟨_, hcontinued⟩ := hend
    intro g' key' h
    rw [consensusKey, hcontinued.groups]
    exact hkeeps g' key' h

theorem fetch_of_any {groupId : Bytes} {groups : Table CommitLogGroup.id}
    (h : groups.rows.any fun g => g.id = groupId && g.commitLogPublicKey.isNone) :
    ∃ row, groups.fetch groupId = some row ∧ row.commitLogPublicKey = none := by
  obtain ⟨row, hrow, hcond⟩ := List.any_eq_true.mp h
  simp only [Bool.and_eq_true, decide_eq_true_eq, Option.isNone_iff_eq_none] at hcond
  exact ⟨row, Table.fetch_eq_some_iff.mpr ⟨hrow, hcond.1⟩, hcond.2⟩

theorem kept_setGroupCommitLogPublicKey (groupId publicKey : Bytes) :
    Triple (Kept crypto s₀) (setGroupCommitLogPublicKey groupId publicKey)
      (onOk (fun _ s => Kept crypto s₀ s ∧ consensusKey s groupId = some publicKey)
        fun (_ : Except CommitLogError Unit) => Kept crypto s₀) := by
  refine ⟨fun s hs => ?_⟩
  simp only [setGroupCommitLogPublicKey, Session.outcome_bind, Session.outcome_get]
  split
  · rename_i hany
    rw [Session.outcome_set]
    obtain ⟨row, hrow, hnone⟩ := fetch_of_any hany
    have hkeys : KeepsKeys s { s with
        groups := s.groups.updateWhere (fun g => g.id = groupId && g.commitLogPublicKey.isNone)
          (f := fun g => { g with commitLogPublicKey := some publicKey }) fun _ => rfl } := by
      intro g key hkey
      rw [consensusKey, Table.fetch_updateWhere]
      rw [consensusKey] at hkey
      obtain ⟨row', hrow', hkey'⟩ := Option.bind_eq_some_iff.mp hkey
      rw [hrow']
      simp [hkey']
    refine ⟨⟨hs.1.mono hkeys rfl, fun g key h => hkeys g key (hs.2 g key h)⟩, ?_⟩
    rw [consensusKey, Table.fetch_updateWhere, hrow]
    have hid := (Table.fetch_eq_some_iff.mp hrow).2
    simp [hid, hnone]
  · exact hs

theorem kept_deriveConsensusPublicKey (response : QueryCommitLogResponse) :
    Triple (Kept crypto s₀) (deriveConsensusPublicKey crypto calls response)
      (onOk (fun key s => Kept crypto s₀ s ∧
          ∀ k ∈ key, consensusKey s response.groupId = some k)
        fun (_ : Except CommitLogError (Option Bytes)) => Kept crypto s₀) := by
  apply Triple.ofExcept_bind fun e s hs => hs
  intro g hg
  split
  · exact .pure fun s hs => ⟨hs, fun k hk => by cases hk⟩
  · rename_i publicKey _
    apply Triple.ofExcept_bind fun e s hs => hs
    intro _ _
    apply Triple.bind ((kept_setGroupCommitLogPublicKey g publicKey).consequence (fun _ h => h)
      fun r s h => by cases r <;> exact h)
    intro _
    refine .pure fun s hs => ⟨hs.1, fun k hk => ?_⟩
    cases hk
    rw [eq_of_groupIdTryFrom hg]
    exact hs.2

theorem kept_saveResponse {keys : List StoredGroupCommitLogPublicKey}
    (hkeys : ∀ c ∈ keys, ∀ k ∈ c.commitLogPublicKey, consensusKey s₀ c.id = some k)
    (results : List (Bytes × Nat)) (response : QueryCommitLogResponse) :
    Triple (Kept crypto s₀) (saveResponse crypto calls keys results response)
      fun _ => Kept crypto s₀ := by
  have hrest (key : Option Bytes) : Triple (fun s => Kept crypto s₀ s ∧
      ∀ k ∈ key, consensusKey s response.groupId = some k) (do
        let numEntries ← saveRemoteCommitLogEntriesAndUpdateCursors crypto calls response key
        return results ++ [(response.groupId, numEntries)]) fun _ => Kept crypto s₀ :=
    (kept_saveRemoteCommitLogEntriesAndUpdateCursors response key).bind_const fun _ =>
      .pure fun s hs => hs
  unfold saveResponse
  split
  · exact .pure fun s hs => hs
  · cases hknown : (keys.find? fun c => c.id = response.groupId).bind
        StoredGroupCommitLogPublicKey.commitLogPublicKey with
    | none => exact Triple.bind (kept_deriveConsensusPublicKey response) hrest
    | some key =>
      obtain ⟨c, hc, hkey⟩ := Option.bind_eq_some_iff.mp hknown
      have hid : c.id = response.groupId := by simpa using List.find?_some hc
      have hknown := hkeys c (List.mem_of_find?_eq_some hc) key hkey
      refine Triple.bind (.pure fun s hs => ?_) hrest
      refine ⟨hs, fun k hk => ?_⟩
      cases hk
      exact hs.2 _ _ (hid ▸ hknown)

theorem sound_saveRemoteCommitLog (h : Sound crypto s) :
    Sound crypto ((saveRemoteCommitLog crypto calls).outcome s).2 := by
  have hrun : Triple (fun t => t = s) (saveRemoteCommitLog crypto calls)
      fun _ => Kept crypto s := by
    have hstart : Kept crypto s s := ⟨h, fun _ _ hkey => hkey⟩
    apply Triple.ofExcept_bind
    · rintro e t rfl
      exact hstart
    · intro listed _
      apply Triple.read_bind
      rintro t rfl
      have hkeys : ∀ c ∈ (t.groups.rows.filter fun g => listed g.id).map fun g =>
          (⟨g.id, g.commitLogPublicKey⟩ : StoredGroupCommitLogPublicKey),
          ∀ k ∈ c.commitLogPublicKey, consensusKey t c.id = some k := by
        intro c hc k hk
        obtain ⟨row, hrow, rfl⟩ := List.mem_map.mp hc
        rw [consensusKey, Table.fetch_eq_some_iff.mpr ⟨List.mem_of_mem_filter hrow, rfl⟩]
        exact hk
      apply Triple.bind_const (I := Kept crypto t)
      · apply (Triple.forM fun c _ => ?_).consequence
        · rintro u rfl
          exact hstart
        · exact fun _ _ h => h
        · exact (kept_lastCursor c.id .commitLogDownload).bind_const fun _ => .pure fun _ hs => hs
      · intro _
        split
        · exact .pure fun _ hs => hs
        · apply Triple.ofExcept_bind fun e s hs => hs
          intro responses _
          exact Triple.foldlM_const
            (fun response _ results => kept_saveResponse hkeys results response) []
  exact (hrun.run s rfl).1

/-- The life of a client: it saves remote entries, and does whatever leaves the saved entries and
the keys that are known alone. -/
inductive SaveStep (crypto : CommitLogCrypto) : CommitLogStore → CommitLogStore → Prop
  | save (s : CommitLogStore) (calls : SaveCalls) :
    SaveStep crypto s ((saveRemoteCommitLog crypto calls).outcome s).2
  | other {s s' : CommitLogStore} (hremote : s'.remoteCommitLog = s.remoteCommitLog)
    (hkeys : KeepsKeys s s') : SaveStep crypto s s'

def Dropped (crypto : CommitLogCrypto) (g key : Bytes) (latest : Option NewRemoteCommitLog)
    (entry : CommitLogEntry) : Prop :=
  ∀ plain, crypto.decode entry.serializedCommitLogEntry = some plain →
    shouldSkipRemoteCommitLogEntry crypto g latest entry plain key = true

theorem saveRemoteCommitLogEntries_drop {g key : Bytes} {before after : List CommitLogEntry}
    {entry : CommitLogEntry}
    (hdropped : ∀ saved s', (before.foldlM (saveRemoteCommitLogEntry crypto calls g key)
      ((RemoteCommitLogs.getLatestRemoteLogForGroup s.remoteCommitLog g).map
        RemoteCommitLog.toNewRemoteCommitLog, 0)).outcome s = (.ok saved, s') →
      Dropped crypto g key saved.1 entry) :
    (saveRemoteCommitLogEntries crypto calls g key (before ++ entry :: after)).outcome s =
      (saveRemoteCommitLogEntries crypto calls g key (before ++ after)).outcome s := by
  simp only [saveRemoteCommitLogEntries, Session.outcome_bind, Session.outcome_ofExcept,
    Session.outcome_get]
  cases calls.readGroup g with
  | error e => rfl
  | ok _ =>
    simp only [List.foldlM_append, Session.outcome_bind]
    cases hbefore : (before.foldlM (saveRemoteCommitLogEntry crypto calls g key)
      ((RemoteCommitLogs.getLatestRemoteLogForGroup s.remoteCommitLog g).map
        RemoteCommitLog.toNewRemoteCommitLog, 0)).outcome s with
    | mk r t =>
      cases r with
      | error e => rfl
      | ok saved =>
        have hskip : saveRemoteCommitLogEntry crypto calls g key saved entry = pure saved := by
          unfold saveRemoteCommitLogEntry
          cases hdecode : crypto.decode entry.serializedCommitLogEntry with
          | none => rfl
          | some plain => exact if_pos (hdropped saved t hbefore plain hdecode)
        simp only [List.foldlM_cons, hskip, pure_bind]

end Run

/-- The saved entries of a group are signed with its key and each goes on from the latest one that
was saved; they are one chain if the log of the server was read in its order. Entries that are
dropped do not affect the ones after them. -/
theorem saved_entries_chained {crypto : CommitLogCrypto} {s : CommitLogStore}
    (h : ReflTransGen (SaveStep crypto) {} s) :
    (∀ g, savedLogs s g ≠ [] → ∃ key, consensusKey s g = some key ∧
      Saved crypto g key (savedLogs s g) ∧
      ((savedLogs s g).Pairwise (fun l m => l.logSequenceId.toInt < m.logSequenceId.toInt) →
        Chain crypto g key none (savedLogs s g) ∧ (savedLogs s g).Pairwise fun l m =>
          l.commitSequenceId.toUInt64 < m.commitSequenceId.toUInt64)) ∧
    ∀ calls g key before after entry,
      (∀ saved s', (before.foldlM (saveRemoteCommitLogEntry crypto calls g key)
          ((RemoteCommitLogs.getLatestRemoteLogForGroup s.remoteCommitLog g).map
            RemoteCommitLog.toNewRemoteCommitLog, 0)).outcome s = (.ok saved, s') →
        Dropped crypto g key saved.1 entry) →
      (saveRemoteCommitLogEntries crypto calls g key (before ++ entry :: after)).outcome s =
        (saveRemoteCommitLogEntries crypto calls g key (before ++ after)).outcome s := by
  have hsound : Sound crypto s := by
    induction h with
    | refl => exact fun g hne => absurd rfl hne
    | tail _ hstep ih =>
      cases hstep with
      | save calls => exact sound_saveRemoteCommitLog ih
      | other hremote hkeys => exact ih.mono hkeys hremote
  refine ⟨fun g hne => ?_, fun calls g key before after entry hdropped =>
    saveRemoteCommitLogEntries_drop hdropped⟩
  obtain ⟨key, hkey, hsaved⟩ := hsound g hne
  exact ⟨key, hkey, hsaved, fun hascending =>
    ⟨hsaved.chain hascending, (hsaved.chain hascending).pairwise⟩⟩

namespace ChainSample

def group (n : UInt8) : Bytes := List.replicate 16 n

def crypto : CommitLogCrypto where
  encode _ := []
  decode
    | [g, commit, epoch, last, applied] => some {
        groupId := group g
        commitSequenceId := UInt64.ofNat commit.toNat
        lastEpochAuthenticator := [last]
        commitResult := CommitResult.applied
        appliedEpochNumber := UInt64.ofNat epoch.toNat
        appliedEpochAuthenticator := if applied = 0 then [] else [applied] }
    | _ => none
  sign privateKey message := .ok (privateKey ++ message)
  toPublicKey privateKey := .ok privateKey
  verifySignature message publicKey signature := signature = publicKey ++ message

def entry (sequenceId : UInt64) (key : UInt8) (message : Bytes) : CommitLogEntry :=
  ⟨sequenceId, message, some ⟨key :: message, [key]⟩⟩

def calls (responses : List QueryCommitLogResponse) : SaveCalls where
  getConversationIdsForRemoteLogDownload := .ok fun _ => true
  queryCommitLog := .ok responses
  maybeSharePrivateKey _ _ := .ok ()
  readGroup _ := .ok ()
  storeRemoteCommitLog _ := .ok ()
  updateCursor _ := .ok ()

def joined : CommitLogStore :=
  { groups := ((Table.empty.insertOrIgnore ⟨group 1, none, none⟩).insertOrIgnore
      ⟨group 2, none, none⟩).insertOrIgnore ⟨group 3, none, none⟩ }

def save (responses : List QueryCommitLogResponse) (s : CommitLogStore) : CommitLogStore :=
  ((saveRemoteCommitLog crypto (calls responses)).outcome s).2

theorem reaches_save {s : CommitLogStore} (h : ReflTransGen (SaveStep crypto) {} s)
    (responses : List QueryCommitLogResponse) :
    ReflTransGen (SaveStep crypto) {} (save responses s) :=
  h.tail (.save _ (calls responses))

theorem reaches_joined : ReflTransGen (SaveStep crypto) {} joined :=
  .single (.other rfl fun _ _ h => by cases h)

def secondPage : CommitLogStore :=
  save [⟨group 1, [entry 3 7 [1, 6, 2, 1, 2]]⟩] (save [⟨group 1, [entry 10 7 [1, 5, 1, 0, 1]]⟩] joined)

theorem reaches_secondPage : ReflTransGen (SaveStep crypto) {} secondPage :=
  reaches_save (reaches_save reaches_joined _) _

def thirdPage : CommitLogStore := save [⟨group 1, [entry 4 7 [1, 6, 2, 1, 3]]⟩] secondPage

end ChainSample

open ChainSample in
theorem saved_entries_chained_secondPage :
    ∃ key, consensusKey secondPage (group 1) = some key ∧
      Saved crypto (group 1) key (savedLogs secondPage (group 1)) := by
  obtain ⟨key, hkey, hsaved, _⟩ := (saved_entries_chained reaches_secondPage).1 (group 1)
    (by decide +kernel)
  exact ⟨key, hkey, hsaved⟩

open ChainSample in
/-- A commit is saved twice if the server does not return its log in order; an empty authenticator
is not compared; and the first signed entry sets the key of its group, even if it is dropped. -/
theorem saved_entries_not_chained :
    ReflTransGen (SaveStep crypto) {} thirdPage ∧
    ((savedLogs thirdPage (group 1)).map fun l =>
      (l.commitSequenceId, l.appliedEpochNumber, l.appliedEpochAuthenticator)) =
        [(5, 1, [1]), (6, 2, [2]), (6, 2, [3])] ∧
    (savedLogs (save [⟨group 2, [entry 1 7 [2, 5, 1, 0, 0], entry 2 7 [2, 6, 2, 9, 2]]⟩] joined)
      (group 2)).map (·.commitSequenceId) = [5, 6] ∧
    savedLogs (save [⟨group 3, [entry 1 8 [3, 0, 0, 0, 1], entry 2 7 [3, 5, 1, 0, 1]]⟩] joined)
      (group 3) = [] ∧
    (savedLogs (save [⟨group 3, [entry 2 7 [3, 5, 1, 0, 1]]⟩] joined) (group 3)).map
      (·.commitSequenceId) = [5] := by
  refine ⟨reaches_save reaches_secondPage _, ?_, ?_, ?_, ?_⟩
  all_goals decide +kernel

end LibXmtp.Groups.CommitLogWorker
