import LibXmtp.Data.Result
import LibXmtp.Groups.CommitLog
import Mathlib.Logic.Relation

namespace LibXmtp.Groups.CommitLogWorker

open LibXmtp.Data LibXmtp.Types LibXmtp.Db CommitLogStore Relation
open LibXmtp.Data.Session (Triple)

section Answers

variable (s : CommitLogStore) (g : Bytes)

/-- An entry of the group that neither starts a chain nor is older than the latest start of one. -/
structure Comparable (log : LocalCommitLog) : Prop where
  mem : log ∈ s.localCommitLog.rows
  groupId : log.groupId = g
  commitSequenceId : log.commitSequenceId ≠ 0
  chainStart : ∀ rowid, LocalCommitLogs.getLatestChainStartRowid s.localCommitLog g = some rowid →
    rowid < log.rowid

structure Matched (log : LocalCommitLog) (remote : RemoteCommitLog) : Prop
    extends Comparable s g log where
  notTerminal : isTerminal log = false
  remoteMem : remote ∈ s.remoteCommitLog.rows
  remoteGroupId : remote.groupId = g
  remoteCommitSequenceId : remote.commitSequenceId = log.commitSequenceId

def Mismatch : Prop :=
  ∃ log remote, Matched s g log remote ∧
    log.appliedEpochAuthenticator ≠ remote.appliedEpochAuthenticator

/-- Of the entries up to a row, the newest that is not the mark of a removal has the authenticator
of its remote entry. -/
def VerifiedUpTo (n : Nat) : Prop :=
  ∃ log remote, Matched s g log remote ∧
    log.appliedEpochAuthenticator = remote.appliedEpochAuthenticator ∧
    ∀ newer ∈ s.localCommitLog.rows, newer.groupId = g → newer.commitSequenceId ≠ 0 →
      log.rowid < newer.rowid → newer.rowid ≤ n → isTerminal newer = true

def Verified : Prop := VerifiedUpTo s g s.localCommitLog.lastRowid

def forkedStatus : Option Bool := (s.groups.fetch g).bind CommitLogGroup.isCommitLogForked

def InChain (n : Nat) : Prop :=
  ∀ rowid, LocalCommitLogs.getLatestChainStartRowid s.localCommitLog g = some rowid → rowid ≤ n

end Answers

section Check

variable {s₀ s s' : CommitLogStore} {id : Bytes}

structure Unmoved (s₀ s : CommitLogStore) : Prop where
  localCommitLog : s.localCommitLog = s₀.localCommitLog
  remoteCommitLog : s.remoteCommitLog = s₀.remoteCommitLog
  groups : s.groups = s₀.groups
  cursor : ∀ id kind, s.cursor id kind = s₀.cursor id kind

def Moved (stop : Nat → Prop) (start cursor : Nat) : Prop :=
  cursor = start ∨ start < cursor ∧ stop cursor

theorem Moved.max {stop : Nat → Prop} {start cursor n : Nat} (h : Moved stop start cursor)
    (hn : stop n) : Moved stop start (max cursor n) := by
  rcases Nat.le_total n cursor with hle | hle
  · rw [Nat.max_eq_left hle]
    exact h
  · rw [Nat.max_eq_right hle]
    have hstart : start ≤ cursor := by
      rcases h with heq | hlt
      · exact Nat.le_of_eq heq.symm
      · exact Nat.le_of_lt hlt.1
    rcases Nat.eq_or_lt_of_le (Nat.le_trans hstart hle) with heq | hlt
    · exact .inl heq.symm
    · exact .inr ⟨hlt, hn⟩

/-- The local cursor stops at the start of a chain, at the mark of a removal, or at an entry that
has been compared. -/
def LocalStop (s₀ : CommitLogStore) (id : Bytes) (n : Nat) : Prop :=
  ∃ log ∈ s₀.localCommitLog.rows, log.groupId = id ∧ log.rowid = n ∧
    (log.commitSequenceId = 0 ∨ isTerminal log = true ∨ ∃ remote, Matched s₀ id log remote)

def RemoteStop (s₀ : CommitLogStore) (id : Bytes) (n : Nat) : Prop :=
  ∃ log remote, Matched s₀ id log remote ∧ remote.rowid = n

/-- What a check of a group changes: it moves the two cursors of the group forward. -/
structure Checked (s₀ : CommitLogStore) (id : Bytes) (s : CommitLogStore) : Prop where
  localCommitLog : s.localCommitLog = s₀.localCommitLog
  remoteCommitLog : s.remoteCommitLog = s₀.remoteCommitLog
  groups : s.groups = s₀.groups
  other : ∀ id' kind, id' ≠ id → s.cursor id' kind = s₀.cursor id' kind
  localCursor : Moved (LocalStop s₀ id) (s₀.cursor id .commitLogForkCheckLocal)
    (s.cursor id .commitLogForkCheckLocal)
  remoteCursor : Moved (RemoteStop s₀ id) (s₀.cursor id .commitLogForkCheckRemote)
    (s.cursor id .commitLogForkCheckRemote)

theorem Unmoved.refl (s : CommitLogStore) : Unmoved s s := ⟨rfl, rfl, rfl, fun _ _ => rfl⟩

theorem Unmoved.checked (h : Unmoved s₀ s) : Checked s₀ id s :=
  ⟨h.localCommitLog, h.remoteCommitLog, h.groups, fun _ _ _ => h.cursor _ _, .inl (h.cursor _ _),
    .inl (h.cursor _ _)⟩

theorem Checked.setLocal (h : Checked s₀ id s) {n : Nat} (hstop : LocalStop s₀ id n) :
    Checked s₀ id (s.setCursor id .commitLogForkCheckLocal n) where
  localCommitLog := h.localCommitLog
  remoteCommitLog := h.remoteCommitLog
  groups := h.groups
  other id' kind hne := by
    rw [cursor_setCursor, if_neg fun heq => hne heq.1.symm]
    exact h.other id' kind hne
  localCursor := by
    rw [cursor_setCursor, if_pos ⟨rfl, rfl⟩]
    exact h.localCursor.max hstop
  remoteCursor := by
    rw [cursor_setCursor, if_neg fun heq => by cases heq.2]
    exact h.remoteCursor

theorem Checked.setRemote (h : Checked s₀ id s) {n : Nat} (hstop : RemoteStop s₀ id n) :
    Checked s₀ id (s.setCursor id .commitLogForkCheckRemote n) where
  localCommitLog := h.localCommitLog
  remoteCommitLog := h.remoteCommitLog
  groups := h.groups
  other id' kind hne := by
    rw [cursor_setCursor, if_neg fun heq => hne heq.1.symm]
    exact h.other id' kind hne
  localCursor := by
    rw [cursor_setCursor, if_neg fun heq => by cases heq.2]
    exact h.localCursor
  remoteCursor := by
    rw [cursor_setCursor, if_pos ⟨rfl, rfl⟩]
    exact h.remoteCursor.max hstop

inductive Answered (s₀ : CommitLogStore) (id : Bytes) (s : CommitLogStore) : Option Bool → Prop
  | unknown : Answered s₀ id s none
  | forked (h : Mismatch s₀ id) : Answered s₀ id s (some true)
  | notForked (h : Verified s₀ id) : Answered s₀ id s (some false)
  | stored
    (cursor : s.cursor id .commitLogForkCheckLocal = s₀.cursor id .commitLogForkCheckLocal)
    (chain : InChain s₀ id (s₀.cursor id .commitLogForkCheckLocal))
    (nothingNew : LocalCommitLogs.after s₀.localCommitLog id
      (s₀.cursor id .commitLogForkCheckLocal) = []) :
    Answered s₀ id s (forkedStatus s₀ id)

def AfterCheck (s₀ : CommitLogStore) (id : Bytes) (r : Except CommitLogError (Option Bool))
    (s : CommitLogStore) : Prop :=
  Checked s₀ id s ∧ ∀ answer, r = .ok answer → Answered s₀ id s answer

theorem afterCheck_error {e : CommitLogError} (h : Checked s₀ id s) :
    AfterCheck s₀ id (.error e) s := ⟨h, fun _ h => by cases h⟩

theorem afterCheck_ok {answer : Option Bool} (h : Checked s₀ id s)
    (hanswer : Answered s₀ id s answer) : AfterCheck s₀ id (.ok answer) s :=
  ⟨h, fun _ h => Except.ok.inj h ▸ hanswer⟩

variable (calls : ForkCheckCall → Except CommitLogError Unit)

theorem triple_readCursor (s₀ : CommitLogStore) (id : Bytes) (kind : EntityKind) :
    Triple (Unmoved s₀) (readCursor calls id kind) fun r s =>
      Unmoved s₀ s ∧ ∀ n, r = .ok n → n = s₀.cursor id kind := by
  apply Triple.ofExcept_bind
  · intro e s hs
    exact ⟨hs, fun _ h => by cases h⟩
  · intro _ _
    refine ⟨fun s hs => ⟨⟨hs.1, hs.2, hs.3, fun id' kind' => ?_⟩, fun n hn => ?_⟩⟩
    · rw [← hs.cursor]
      exact cursorOf_getLastCursorForOriginator id s.refreshStates kind kind' _ _
    · rw [← hs.cursor]
      exact (Except.ok.inj hn).symm

theorem triple_updateForkCheckCursor_bind {α : Type} {kind : EntityKind} {rowid : Nat}
    {P R : CommitLogStore → Prop} {Q : Except CommitLogError α → CommitLogStore → Prop}
    {f : Unit → Session CommitLogStore CommitLogError α} (herror : ∀ e s, P s → Q (.error e) s)
    (hset : ∀ s, P s → R (s.setCursor id kind rowid)) (hf : Triple R (f ()) Q) :
    Triple P (updateForkCheckCursor calls id kind rowid >>= f) Q := by
  rw [updateForkCheckCursor, bind_assoc]
  apply Triple.ofExcept_bind herror
  intro _ _
  exact ⟨fun s hs => hf.run _ (hset s hs)⟩

/-- The entries that a check goes through: all that follow the first of them are among them. -/
structure Window (s₀ : CommitLogStore) (id : Bytes) (logs : List LocalCommitLog) : Prop where
  comparable : ∀ log ∈ logs, Comparable s₀ id log
  descending : logs.Pairwise fun r s => s.rowid < r.rowid
  newer : ∀ log ∈ logs, ∀ log' ∈ s₀.localCommitLog.rows, log'.groupId = id →
    log'.commitSequenceId ≠ 0 → log.rowid < log'.rowid → log' ∈ logs

theorem Window.le_of_mem_cons {seen logs : List LocalCommitLog} {log log' : LocalCommitLog}
    (h : Window s₀ id (seen ++ log :: logs)) (hmem : log' ∈ log :: logs) :
    log'.rowid ≤ log.rowid := by
  have hdescending := (List.pairwise_append.mp h.descending).2.1
  rcases List.mem_cons.mp hmem with rfl | hmem
  · exact Nat.le_refl _
  · exact Nat.le_of_lt ((List.pairwise_cons.mp hdescending).1 log' hmem)

theorem matched_of_findMatchingRemoteLog {remoteLogs : List RemoteCommitLog}
    (hremote : ∀ remote ∈ remoteLogs,
      remote ∈ s₀.remoteCommitLog.rows ∧ remote.groupId = id)
    {log : LocalCommitLog} (hlog : Comparable s₀ id log) (hterminal : isTerminal log = false)
    {remote : RemoteCommitLog}
    (hfind : findMatchingRemoteLog remoteLogs log.commitSequenceId = some remote) :
    Matched s₀ id log remote := by
  obtain ⟨hmem, hgroup⟩ := hremote remote (List.mem_of_find?_eq_some hfind)
  have hseq := List.find?_some hfind
  exact { toComparable := hlog, notTerminal := hterminal, remoteMem := hmem,
          remoteGroupId := hgroup, remoteCommitSequenceId := of_decide_eq_true hseq }

variable (s₀ id) in
theorem triple_compareLogs {remoteLogs : List RemoteCommitLog}
    (hremote : ∀ remote ∈ remoteLogs, remote ∈ s₀.remoteCommitLog.rows ∧ remote.groupId = id)
    (seen logs : List LocalCommitLog) (hwindow : Window s₀ id (seen ++ logs))
    (isRemoteLogUpToDate : Bool)
    (hseen : isRemoteLogUpToDate = true → ∀ log ∈ seen, isTerminal log = true) :
    Triple (Checked s₀ id) (compareLogs calls id remoteLogs isRemoteLogUpToDate logs)
      (AfterCheck s₀ id) := by
  induction logs generalizing seen isRemoteLogUpToDate with
  | nil => exact .pure fun s hs => afterCheck_ok hs .unknown
  | cons log logs ih =>
    have hwindow' : Window s₀ id ((seen ++ [log]) ++ logs) := by
      rw [List.append_assoc]
      exact hwindow
    have hlog : Comparable s₀ id log := hwindow.comparable log (by simp)
    rw [compareLogs]
    split
    · rename_i hterminal
      have hstop : LocalStop s₀ id log.rowid :=
        ⟨log, hlog.mem, hlog.groupId, rfl, .inr (.inl hterminal)⟩
      apply triple_updateForkCheckCursor_bind calls (fun _ _ hs => afterCheck_error hs)
        fun _ hs => hs.setLocal hstop
      refine ih (seen ++ [log]) hwindow' isRemoteLogUpToDate fun hup log' hmem => ?_
      rcases List.mem_append.mp hmem with hmem | hmem
      · exact hseen hup log' hmem
      · rw [List.mem_singleton.mp hmem]
        exact hterminal
    · rename_i hnotTerminal
      cases hfind : findMatchingRemoteLog remoteLogs log.commitSequenceId with
      | none => exact ih (seen ++ [log]) hwindow' false fun h => by cases h
      | some remote =>
        have hmatched : Matched s₀ id log remote := matched_of_findMatchingRemoteLog hremote hlog
          (Bool.eq_false_iff.mpr hnotTerminal) hfind
        apply triple_updateForkCheckCursor_bind calls (fun _ _ hs => afterCheck_error hs)
          fun _ hs => hs.setLocal
            ⟨log, hlog.mem, hlog.groupId, rfl, .inr (.inr ⟨remote, hmatched⟩)⟩
        apply triple_updateForkCheckCursor_bind calls (fun _ _ hs => afterCheck_error hs)
          fun _ hs => hs.setRemote ⟨log, remote, hmatched, rfl⟩
        split
        · rename_i hne
          exact .pure fun s hs => afterCheck_ok hs (.forked ⟨log, remote, hmatched, hne⟩)
        · rename_i heq
          split
          · rename_i hup
            refine .pure fun s hs => afterCheck_ok hs
              (.notForked ⟨log, remote, hmatched, of_not_not heq, ?_⟩)
            intro newer hmem hgroup hseq hlt _
            have hin := hwindow.newer log (by simp) newer hmem hgroup hseq hlt
            rcases List.mem_append.mp hin with hin | hin
            · exact hseen hup newer hin
            · exact absurd hlt (Nat.not_lt_of_ge (hwindow.le_of_mem_cons hin))
          · exact .pure fun s hs => afterCheck_ok hs .unknown

/-- The latest start of a chain has been passed; if no cursor was moved, it had been before. -/
structure Crossed (s₀ : CommitLogStore) (id : Bytes) (out : Nat × Bool) (s : CommitLogStore) :
    Prop where
  checked : Checked s₀ id s
  chain : InChain s₀ id out.1
  unmoved : out.2 = false → Unmoved s₀ s ∧ out.1 = s₀.cursor id .commitLogForkCheckLocal

theorem triple_crossChainStart (s₀ : CommitLogStore) (id : Bytes) :
    Triple (Unmoved s₀) (crossChainStart calls id (s₀.cursor id .commitLogForkCheckLocal))
      (Session.onOk (Crossed s₀ id) (AfterCheck s₀ id)) := by
  have herror (e : CommitLogError) (s : CommitLogStore) (hs : Unmoved s₀ s) :
      Session.onOk (Crossed s₀ id) (AfterCheck s₀ id) (.error e) s :=
    afterCheck_error hs.checked
  apply Triple.ofExcept_bind herror
  intro _ _
  apply Triple.read_bind
  intro s hs
  rw [hs.localCommitLog]
  have hkeep (h : InChain s₀ id (s₀.cursor id .commitLogForkCheckLocal)) :
      Triple (Unmoved s₀)
        (pure (s₀.cursor id .commitLogForkCheckLocal, false) :
          Session CommitLogStore CommitLogError (Nat × Bool))
        (Session.onOk (Crossed s₀ id) (AfterCheck s₀ id)) :=
    .pure fun s hs => ⟨hs.checked, h, fun _ => ⟨hs, rfl⟩⟩
  cases hanchor : LocalCommitLogs.getLatestChainStartRowid s₀.localCommitLog id with
  | none =>
    apply hkeep
    intro rowid hrowid
    rw [hanchor] at hrowid
    cases hrowid
  | some rowid =>
    have hchain {n : Nat} (h : rowid ≤ n) : InChain s₀ id n := by
      intro rowid' hrowid'
      rw [hanchor] at hrowid'
      cases hrowid'
      exact h
    simp only
    split
    · have hstop : LocalStop s₀ id rowid := by
        obtain ⟨log, hlatest, hrowid⟩ := Option.map_eq_some_iff.mp hanchor
        obtain ⟨hmem, hcond⟩ := RowLog.mem_of_latest hlatest
        simp only [Bool.and_eq_true, decide_eq_true_eq] at hcond
        exact ⟨log, hmem, hcond.1, hrowid, .inl hcond.2⟩
      apply triple_updateForkCheckCursor_bind calls herror
        fun _ hs => hs.checked.setLocal hstop
      exact .pure fun s hs => ⟨hs, hchain (Nat.le_refl _), fun h => by cases h⟩
    · rename_i hle
      exact hkeep (hchain (Nat.le_of_not_lt hle))

theorem window_after {n : Nat} (h : InChain s₀ id n) :
    Window s₀ id (LocalCommitLogs.after s₀.localCommitLog id n).reverse where
  comparable log hlog := by
    rw [List.mem_reverse, LocalCommitLogs.mem_after] at hlog
    obtain ⟨hmem, hgroup, hlt, hseq⟩ := hlog
    exact ⟨hmem, hgroup, hseq, fun rowid hrowid => Nat.lt_of_le_of_lt (h rowid hrowid) hlt⟩
  descending := List.pairwise_reverse.mpr (LocalCommitLogs.pairwise_after _ _ _)
  newer log hlog log' hmem hgroup hseq hlt := by
    rw [List.mem_reverse, LocalCommitLogs.mem_after] at hlog ⊢
    exact ⟨hmem, hgroup, Nat.lt_trans hlog.2.2.1 hlt, hseq⟩

theorem triple_checkConversationForkState (s₀ : CommitLogStore) (id : Bytes) :
    Triple (Unmoved s₀) (checkConversationForkState calls id) (AfterCheck s₀ id) := by
  have herror (e : CommitLogError) (s : CommitLogStore) (hs : Unmoved s₀ s) :
      AfterCheck s₀ id (.error e) s := afterCheck_error hs.checked
  apply Triple.bind ((triple_readCursor calls s₀ id _).onOk_of_and herror)
  intro localCursor
  apply Triple.assume
  intro hlocal
  subst hlocal
  apply Triple.bind ((triple_readCursor calls s₀ id _).onOk_of_and herror)
  intro remoteCursor
  apply Triple.assume
  intro _
  apply Triple.bind (triple_crossChainStart calls s₀ id)
  rintro ⟨localCursor, crossedChainStart⟩
  have herror (e : CommitLogError) (s : CommitLogStore)
      (hs : Crossed s₀ id (localCursor, crossedChainStart) s) :
      AfterCheck s₀ id (.error e) s := afterCheck_error hs.checked
  apply Triple.ofExcept_bind herror
  intro _ _
  apply Triple.read_bind
  intro s hs
  rw [hs.checked.localCommitLog]
  apply Triple.ofExcept_bind herror
  intro localLogs hlocal
  obtain rfl := LocalCommitLogs.getLocalCommitLogAfterCursor_descending (mapError_eq_ok.mp hlocal)
  apply Triple.read_bind
  intro s hs
  rw [hs.checked.remoteCommitLog]
  apply Triple.ofExcept_bind herror
  intro remoteLogs hremote
  obtain rfl :=
    RemoteCommitLogs.getRemoteCommitLogAfterCursor_descending (mapError_eq_ok.mp hremote)
  split
  · rename_i hnothingNew
    split
    · exact .pure fun s hs => afterCheck_ok hs.checked .unknown
    · rename_i hcrossed
      apply Triple.ofExcept_bind herror
      intro _ _
      apply Triple.read_bind
      intro s hs
      obtain ⟨hunmoved, hcursor⟩ := hs.unmoved (Bool.eq_false_iff.mpr hcrossed)
      have hchain := hs.chain
      simp only at hcursor hchain
      subst hcursor
      rw [hunmoved.groups]
      cases hgroup : s₀.groups.fetch id with
      | none => exact ⟨fun s hs => herror _ s hs⟩
      | some group =>
        refine .pure fun s hs => afterCheck_ok hs.checked ?_
        have hstatus : group.isCommitLogForked = forkedStatus s₀ id := by
          rw [forkedStatus, hgroup]
          rfl
        rw [hstatus]
        refine .stored ?_ hchain (List.reverse_eq_nil_iff.mp hnothingNew)
        exact (hs.unmoved (Bool.eq_false_iff.mpr hcrossed)).1.cursor _ _
  · have hafter : ∀ remote ∈ (RemoteCommitLogs.after s₀.remoteCommitLog id remoteCursor).reverse,
        remote ∈ s₀.remoteCommitLog.rows ∧ remote.groupId = id := fun remote hmem => by
      rw [List.mem_reverse, RemoteCommitLogs.mem_after] at hmem
      exact ⟨hmem.1, hmem.2.1⟩
    have hcompare := triple_compareLogs s₀ id calls hafter [] _ (window_after hs.chain) true
      fun _ _ h => by cases h
    exact hcompare.consequence (fun _ hs => hs.checked) fun _ _ h => h

/-- A conversation whose check fails is left as it was; otherwise its answer is stored. -/
def Updated (s₀ : CommitLogStore) (id : Bytes) (s : CommitLogStore) : Prop :=
  s = s₀ ∨ ∃ t answer, Checked s₀ id t ∧ Answered s₀ id t answer ∧
    s = { t with
      groups := t.groups.updateWhere (fun g => g.id = id)
        (f := fun g => { g with isCommitLogForked := answer }) (CommitLogGroup.id_forked answer) }

theorem triple_updateConversationForkedState (s₀ : CommitLogStore) (id : Bytes) :
    Triple (fun s => s = s₀) (updateConversationForkedState calls id) fun _ s =>
      Updated s₀ id s := by
  apply Triple.transaction
  · have hcheck : Triple (fun s => s = s₀) (checkConversationForkState calls id)
        (Session.onOk (fun answer s => Checked s₀ id s ∧ Answered s₀ id s answer)
          fun (r : Except CommitLogError Unit) s => ∀ b, r = .ok b → Updated s₀ id s) :=
      (triple_checkConversationForkState calls s₀ id).consequence
        (fun s hs => hs ▸ .refl s) fun r s hs => by
        cases r with
        | ok answer => exact ⟨hs.1, hs.2 answer rfl⟩
        | error e => exact fun _ h => by cases h
    apply Triple.bind hcheck
    intro answer
    rw [setGroupCommitLogForkedStatus, bind_assoc]
    apply Triple.ofExcept_bind fun _ _ _ _ h => by cases h
    intro _ _
    refine ⟨fun s hs => ?_⟩
    rw [Session.outcome_bind, Session.outcome_modify]
    exact fun _ _ => .inr ⟨s, answer, hs.1, hs.2, rfl⟩
  · exact fun _ _ hs => .inl hs

end Check

section Runs

variable {g id : Bytes} {s₀ s s' : CommitLogStore}

theorem Matched.mono {log : LocalCommitLog} {remote : RemoteCommitLog} (h : Matched s g log remote)
    (hlocal : ∀ row ∈ s.localCommitLog.rows, row ∈ s'.localCommitLog.rows)
    (hremote : ∀ row ∈ s.remoteCommitLog.rows, row ∈ s'.remoteCommitLog.rows)
    (hchain : LocalCommitLogs.getLatestChainStartRowid s'.localCommitLog g =
      LocalCommitLogs.getLatestChainStartRowid s.localCommitLog g) :
    Matched s' g log remote where
  mem := hlocal log h.mem
  groupId := h.groupId
  commitSequenceId := h.commitSequenceId
  chainStart rowid hrowid := h.chainStart rowid (hchain ▸ hrowid)
  notTerminal := h.notTerminal
  remoteMem := hremote remote h.remoteMem
  remoteGroupId := h.remoteGroupId
  remoteCommitSequenceId := h.remoteCommitSequenceId

theorem Matched.congr {log : LocalCommitLog} {remote : RemoteCommitLog}
    (h : Matched s g log remote) (hlocal : s'.localCommitLog = s.localCommitLog)
    (hremote : s'.remoteCommitLog = s.remoteCommitLog) : Matched s' g log remote :=
  h.mono (fun _ hrow => hlocal ▸ hrow) (fun _ hrow => hremote ▸ hrow) (by rw [hlocal])

theorem Mismatch.congr (h : Mismatch s g) (hlocal : s'.localCommitLog = s.localCommitLog)
    (hremote : s'.remoteCommitLog = s.remoteCommitLog) : Mismatch s' g := by
  obtain ⟨log, remote, hmatched, hne⟩ := h
  exact ⟨log, remote, hmatched.congr hlocal hremote, hne⟩

theorem VerifiedUpTo.congr {n : Nat} (h : VerifiedUpTo s g n)
    (hlocal : s'.localCommitLog = s.localCommitLog)
    (hremote : s'.remoteCommitLog = s.remoteCommitLog) : VerifiedUpTo s' g n := by
  obtain ⟨log, remote, hmatched, heq, hnewer⟩ := h
  refine ⟨log, remote, hmatched.congr hlocal hremote, heq, ?_⟩
  rw [hlocal]
  exact hnewer

theorem VerifiedUpTo.anti {m n : Nat} (h : VerifiedUpTo s g n) (hle : m ≤ n) :
    VerifiedUpTo s g m := by
  obtain ⟨log, remote, hmatched, heq, hnewer⟩ := h
  exact ⟨log, remote, hmatched, heq, fun newer hmem hgroup hseq hlt hrowid =>
    hnewer newer hmem hgroup hseq hlt (Nat.le_trans hrowid hle)⟩

structure StatusSound (g : Bytes) (s : CommitLogStore) : Prop where
  cursor_le : s.cursor g .commitLogForkCheckLocal ≤ s.localCommitLog.lastRowid
  forked : forkedStatus s g = some true →
    InChain s g (s.cursor g .commitLogForkCheckLocal) → Mismatch s g
  notForked : forkedStatus s g = some false →
    InChain s g (s.cursor g .commitLogForkCheckLocal) →
      VerifiedUpTo s g (s.cursor g .commitLogForkCheckLocal)

theorem StatusSound.congr (h : StatusSound g s) (hlocal : s'.localCommitLog = s.localCommitLog)
    (hremote : s'.remoteCommitLog = s.remoteCommitLog)
    (hcursor : s'.cursor g .commitLogForkCheckLocal = s.cursor g .commitLogForkCheckLocal)
    (hstatus : forkedStatus s' g = forkedStatus s g) : StatusSound g s' := by
  refine ⟨?_, fun h' hchain => ?_, fun h' hchain => ?_⟩
  · rw [hcursor, hlocal]
    exact h.cursor_le
  · rw [InChain, hlocal, hcursor] at hchain
    exact (h.forked (hstatus ▸ h') hchain).congr hlocal hremote
  · rw [InChain, hlocal, hcursor] at hchain
    rw [hcursor]
    exact (h.notForked (hstatus ▸ h') hchain).congr hlocal hremote

theorem Answered.sound {answer : Option Bool} (h : Answered s₀ g s answer)
    (hstatus : StatusSound g s₀) :
    (answer = some true → Mismatch s₀ g) ∧ (answer = some false → Verified s₀ g) := by
  cases h with
  | unknown => exact ⟨fun h => (by cases h), fun h => by cases h⟩
  | forked h => exact ⟨fun _ => h, fun h => by cases h⟩
  | notForked h => exact ⟨fun h => (by cases h), fun _ => h⟩
  | stored cursor chain nothingNew =>
    refine ⟨fun h => hstatus.forked h chain, fun h => ?_⟩
    obtain ⟨log, remote, hmatched, heq, hnewer⟩ := hstatus.notForked h chain
    refine ⟨log, remote, hmatched, heq, fun newer hmem hgroup hseq hlt _ => ?_⟩
    -- an entry above the cursor would be new
    by_cases hle : newer.rowid ≤ s₀.cursor g .commitLogForkCheckLocal
    · exact hnewer newer hmem hgroup hseq hlt hle
    · have hnew := (LocalCommitLogs.mem_after _ _).mpr ⟨hmem, hgroup, Nat.lt_of_not_le hle, hseq⟩
      rw [nothingNew] at hnew
      cases hnew

theorem Moved.le {stop : Nat → Prop} {start cursor : Nat} (h : Moved stop start cursor) :
    start ≤ cursor := by
  rcases h with heq | hlt
  · exact Nat.le_of_eq heq.symm
  · exact Nat.le_of_lt hlt.1

theorem Checked.cursor_le (h : Checked s₀ id s) (hstatus : StatusSound g s₀) :
    s.cursor g .commitLogForkCheckLocal ≤ s.localCommitLog.lastRowid := by
  rw [h.localCommitLog]
  by_cases hid : g = id
  · subst hid
    rcases h.localCursor with heq | ⟨_, log, hmem, _, hrowid, _⟩
    · rw [heq]
      exact hstatus.cursor_le
    · rw [← hrowid]
      exact s₀.localCommitLog.le_lastRowid hmem
  · rw [h.other g _ hid]
    exact hstatus.cursor_le

theorem Checked.le_cursor (h : Checked s₀ id s) {kind : EntityKind}
    (hkind : kind = .commitLogForkCheckLocal ∨ kind = .commitLogForkCheckRemote) :
    s₀.cursor g kind ≤ s.cursor g kind := by
  by_cases hid : g = id
  · subst hid
    rcases hkind with rfl | rfl
    · exact h.localCursor.le
    · exact h.remoteCursor.le
  · exact Nat.le_of_eq (h.other g kind hid).symm

theorem StatusSound.storeLocal (h : StatusSound g s) (log : NewLocalCommitLog) :
    StatusSound g { s with localCommitLog := LocalCommitLogs.store s.localCommitLog log } := by
  have hle := h.cursor_le
  by_cases hlog : log.groupId = g ∧ log.commitSequenceId = 0
  · -- the chain that starts here has not been checked
    have hnot : ¬ InChain { s with localCommitLog := LocalCommitLogs.store s.localCommitLog log } g
        (s.cursor g .commitLogForkCheckLocal) := by
      intro hchain
      have hrowid := hchain (s.localCommitLog.lastRowid + 1) (by
        rw [LocalCommitLogs.getLatestChainStartRowid_store, if_pos hlog])
      omega
    exact ⟨Nat.le_trans hle (by simp [LocalCommitLogs.store]), fun _ hchain => absurd hchain hnot,
      fun _ hchain => absurd hchain hnot⟩
  · have hanchor := LocalCommitLogs.getLatestChainStartRowid_store s.localCommitLog g log
    rw [if_neg hlog] at hanchor
    have hmatched {l : LocalCommitLog} {r : RemoteCommitLog} (hm : Matched s g l r) :
        Matched { s with localCommitLog := LocalCommitLogs.store s.localCommitLog log } g l r :=
      hm.mono (fun row hrow => List.mem_append_left _ hrow) (fun _ hrow => hrow) hanchor
    refine ⟨Nat.le_trans hle (by simp [LocalCommitLogs.store]), fun hstatus hchain => ?_,
      fun hstatus hchain => ?_⟩
    · rw [InChain, hanchor] at hchain
      obtain ⟨l, r, hm, hne⟩ := h.forked hstatus hchain
      exact ⟨l, r, hmatched hm, hne⟩
    · rw [InChain, hanchor] at hchain
      obtain ⟨l, r, hm, heq, hnewer⟩ := h.notForked hstatus hchain
      refine ⟨l, r, hmatched hm, heq, fun newer hmem hgroup hseq hlt hrowid => ?_⟩
      rcases List.mem_append.mp hmem with hold | hnew
      · exact hnewer newer hold hgroup hseq hlt hrowid
      · rw [List.mem_singleton.mp hnew] at hrowid
        have hnot : s.localCommitLog.lastRowid + 1 ≤ s.cursor g .commitLogForkCheckLocal := hrowid
        omega

theorem StatusSound.storeRemote (h : StatusSound g s) (log : NewRemoteCommitLog) :
    StatusSound g { s with remoteCommitLog := RemoteCommitLogs.store s.remoteCommitLog log } := by
  have hmatched {l : LocalCommitLog} {r : RemoteCommitLog} (hm : Matched s g l r) :
      Matched { s with remoteCommitLog := RemoteCommitLogs.store s.remoteCommitLog log } g l r :=
    hm.mono (fun _ hrow => hrow) (fun row hrow => List.mem_append_left _ hrow) rfl
  refine ⟨h.cursor_le, fun hstatus hchain => ?_, fun hstatus hchain => ?_⟩
  · obtain ⟨l, r, hm, hne⟩ := h.forked hstatus hchain
    exact ⟨l, r, hmatched hm, hne⟩
  · obtain ⟨l, r, hm, heq, hnewer⟩ := h.notForked hstatus hchain
    exact ⟨l, r, hmatched hm, heq, hnewer⟩

theorem StatusSound.updated (h : StatusSound g s) (hupdated : Updated s id s') :
    StatusSound g s' := by
  rcases hupdated with rfl | ⟨t, answer, hchecked, hanswered, rfl⟩
  · exact h
  · by_cases hid : g = id
    · subst hid
      obtain ⟨hforked, hnotForked⟩ := hanswered.sound h
      have hcursor := hchecked.cursor_le h
      have hstatus {b : Bool} (hb : forkedStatus { t with
          groups := t.groups.updateWhere (fun r => r.id = g)
            (f := fun r => { r with isCommitLogForked := answer }) fun _ => rfl } g = some b) :
          answer = some b := by
        rw [forkedStatus, Table.fetch_updateWhere, Option.bind_map] at hb
        obtain ⟨group, hgroup, hb⟩ := Option.bind_eq_some_iff.mp hb
        obtain ⟨hmem, hkey⟩ := Table.fetch_eq_some_iff.mp hgroup
        simpa [hkey] using hb
      refine ⟨hcursor, fun hb _ => ?_, fun hb _ => ?_⟩
      · exact (hforked (hstatus hb)).congr hchecked.localCommitLog hchecked.remoteCommitLog
      · rw [hchecked.localCommitLog] at hcursor
        exact (VerifiedUpTo.anti (hnotForked (hstatus hb)) hcursor).congr hchecked.localCommitLog
          hchecked.remoteCommitLog
    · refine h.congr hchecked.localCommitLog hchecked.remoteCommitLog (hchecked.other g _ hid) ?_
      rw [forkedStatus, forkedStatus, Table.fetch_updateWhere, hchecked.groups]
      cases hgroup : s.groups.fetch g with
      | none => rfl
      | some group =>
        obtain ⟨_, hkey⟩ := Table.fetch_eq_some_iff.mp hgroup
        have hne : group.id ≠ id := fun heq => hid (hkey.symm.trans heq)
        simp [hne]

/-- What may happen to the logs between two checks of a group. A check whose answer is not stored
leaves the local cursor where it is. -/
inductive ForkCheckStep (g : Bytes) : CommitLogStore → CommitLogStore → Prop
  | storeLocal (s : CommitLogStore) (log : NewLocalCommitLog) : ForkCheckStep g s
    { s with localCommitLog := LocalCommitLogs.store s.localCommitLog log }
  | storeRemote (s : CommitLogStore) (log : NewRemoteCommitLog) : ForkCheckStep g s
    { s with remoteCommitLog := RemoteCommitLogs.store s.remoteCommitLog log }
  | update (s : CommitLogStore) (calls : ForkCheckCall → Except CommitLogError Unit) (id : Bytes) :
    ForkCheckStep g s ((updateConversationForkedState calls id).outcome s).2
  | check (s : CommitLogStore) (calls : ForkCheckCall → Except CommitLogError Unit) (id : Bytes)
    (hcursor : ((checkConversationForkState calls id).outcome s).2.cursor g
      .commitLogForkCheckLocal = s.cursor g .commitLogForkCheckLocal) :
    ForkCheckStep g s ((checkConversationForkState calls id).outcome s).2
  | other {s s' : CommitLogStore} (hlocal : s'.localCommitLog = s.localCommitLog)
    (hremote : s'.remoteCommitLog = s.remoteCommitLog)
    (hcursor : ∀ kind, kind = .commitLogForkCheckLocal ∨ kind = .commitLogForkCheckRemote →
      s'.cursor g kind = s.cursor g kind)
    (hstatus : forkedStatus s' g = forkedStatus s g) : ForkCheckStep g s s'

theorem afterCheck (calls : ForkCheckCall → Except CommitLogError Unit) (id : Bytes)
    (s : CommitLogStore) : AfterCheck s id ((checkConversationForkState calls id).outcome s).1
      ((checkConversationForkState calls id).outcome s).2 :=
  (triple_checkConversationForkState calls s id).run s (.refl s)

theorem afterUpdate (calls : ForkCheckCall → Except CommitLogError Unit) (id : Bytes)
    (s : CommitLogStore) :
    Updated s id ((updateConversationForkedState calls id).outcome s).2 :=
  (triple_updateConversationForkedState calls s id).run s rfl

theorem StatusSound.step (h : StatusSound g s) (hstep : ForkCheckStep g s s') :
    StatusSound g s' := by
  cases hstep with
  | storeLocal log => exact h.storeLocal log
  | storeRemote log => exact h.storeRemote log
  | update calls id => exact h.updated (afterUpdate calls id s)
  | check calls id hcursor =>
    have hchecked := (afterCheck calls id s).1
    refine h.congr hchecked.localCommitLog hchecked.remoteCommitLog hcursor ?_
    rw [forkedStatus, hchecked.groups, forkedStatus]
  | other hlocal hremote hcursor hstatus =>
    exact h.congr hlocal hremote (hcursor _ (.inl rfl)) hstatus

theorem le_cursor_of_step (hstep : ForkCheckStep g s s') {kind : EntityKind}
    (hkind : kind = .commitLogForkCheckLocal ∨ kind = .commitLogForkCheckRemote) :
    s.cursor g kind ≤ s'.cursor g kind := by
  cases hstep with
  | storeLocal log => exact Nat.le_refl _
  | storeRemote log => exact Nat.le_refl _
  | update calls id =>
    rcases afterUpdate calls id s with heq | ⟨t, answer, hchecked, _, heq⟩
    · rw [heq]
    · rw [heq]
      exact hchecked.le_cursor hkind
  | check calls id _ => exact (afterCheck calls id s).1.le_cursor hkind
  | other _ _ hcursor _ => exact Nat.le_of_eq (hcursor kind hkind).symm

theorem run_updateForkedState (g : Bytes) (listed : Except CommitLogError (Bytes → Bool))
    (calls : Bytes → ForkCheckCall → Except CommitLogError Unit) (s : CommitLogStore) :
    ReflTransGen (ForkCheckStep g) s ((updateForkedState listed calls).outcome s).2 := by
  have hrun : Triple (fun t => ReflTransGen (ForkCheckStep g) s t) (updateForkedState listed calls)
      fun _ t => ReflTransGen (ForkCheckStep g) s t := by
    apply Triple.ofExcept_bind fun _ _ h => h
    intro _ _
    apply Triple.read_bind
    intro t _
    apply Triple.forM
    intro id _
    exact ⟨fun u hu => hu.tail (.update u (calls id) id)⟩
  exact hrun.run s .refl

/-- What the result of a check says, and where it moves the cursors. -/
structure CheckSound (s : CommitLogStore) (g : Bytes)
    (out : Except CommitLogError (Option Bool) × CommitLogStore) : Prop where
  forked : out.1 = .ok (some true) → Mismatch s g
  notForked : out.1 = .ok (some false) → Verified s g
  checked : Checked s g out.2

/-- In every run, a check answers that a group is forked only for a pair of entries that differ,
and that it is not only if the newest entry agrees with the remote log; its cursors never go
back. A pass of the worker over its groups is such a run. -/
theorem forkCheck_sound {g : Bytes} {s : CommitLogStore}
    (h : ReflTransGen (ForkCheckStep g) {} s) :
    (∀ calls, CheckSound s g ((checkConversationForkState calls g).outcome s)) ∧
      (∀ s', ReflTransGen (ForkCheckStep g) s s' → ∀ kind,
        kind = .commitLogForkCheckLocal ∨ kind = .commitLogForkCheckRemote →
          s.cursor g kind ≤ s'.cursor g kind) ∧
      ∀ listed calls,
        ReflTransGen (ForkCheckStep g) s ((updateForkedState listed calls).outcome s).2 := by
  have hsound : StatusSound g s := by
    induction h with
    | refl => exact ⟨Nat.le_refl _, fun h => (by cases h), fun h => by cases h⟩
    | tail _ hstep ih => exact ih.step hstep
  refine ⟨fun calls => ?_, fun s' hrun kind hkind => ?_,
    fun listed calls => run_updateForkedState g listed calls s⟩
  · obtain ⟨hchecked, hanswered⟩ := afterCheck calls g s
    exact ⟨fun hout => ((hanswered _ hout).sound hsound).1 rfl,
      fun hout => ((hanswered _ hout).sound hsound).2 rfl, hchecked⟩
  · induction hrun with
    | refl => exact Nat.le_refl _
    | tail _ hstep ih => exact Nat.le_trans ih (le_cursor_of_step hstep hkind)

namespace ForkCheckSample

def group : Bytes := List.replicate 16 1

def created : NewLocalCommitLog :=
  ⟨group, 0, [], .success, 0, [1], some CommitType.groupCreation.toString⟩

def first : NewLocalCommitLog :=
  ⟨group, 5, [1], .success, 1, [2], some CommitType.keyUpdate.toString⟩

def second : NewLocalCommitLog :=
  ⟨group, 6, [2], .success, 2, [3], some CommitType.keyUpdate.toString⟩

def remoteFirst : NewRemoteCommitLog := ⟨1, group, 5, .success, 1, [9]⟩

def remoteSecond : NewRemoteCommitLog := ⟨2, group, 6, .success, 2, [3]⟩

def calls : ForkCheckCall → Except CommitLogError Unit := fun _ => .ok ()

def one : CommitLogStore :=
  { localCommitLog := LocalCommitLogs.store (LocalCommitLogs.store .empty created) first
    remoteCommitLog := RemoteCommitLogs.store .empty remoteFirst }

def both : CommitLogStore :=
  { localCommitLog := LocalCommitLogs.store one.localCommitLog second
    remoteCommitLog := RemoteCommitLogs.store one.remoteCommitLog remoteSecond }

theorem reaches_one : ReflTransGen (ForkCheckStep group) {} one :=
  .tail (.tail (.tail .refl (.storeLocal _ created)) (.storeLocal _ first))
    (.storeRemote _ remoteFirst)

theorem reaches_both : ReflTransGen (ForkCheckStep group) {} both :=
  .tail (.tail reaches_one (.storeLocal _ second)) (.storeRemote _ remoteSecond)

end ForkCheckSample

open ForkCheckSample in
theorem forkCheck_sound_mismatch : Mismatch one group :=
  ((forkCheck_sound reaches_one).1 calls).forked (by decide +kernel)

open ForkCheckSample in
/-- The check answers from the newest entries alone, although an older one differs from its remote
entry, and passes over that. -/
theorem forkCheck_not_all_compared :
    ReflTransGen (ForkCheckStep group) {} both ∧
      ((checkConversationForkState calls group).outcome both).1 = .ok (some false) ∧
      ((checkConversationForkState calls group).outcome both).2.cursor group
        .commitLogForkCheckLocal = 3 ∧
      ∃ log remote, Matched both group log remote ∧ log.rowid < 3 ∧
        log.appliedEpochAuthenticator ≠ remote.appliedEpochAuthenticator := by
  refine ⟨reaches_both, by decide +kernel, by decide +kernel, ⟨first, 2⟩, ⟨remoteFirst, 1⟩, ?_,
    by decide, by decide⟩
  refine { mem := by decide +kernel, groupId := rfl, commitSequenceId := by decide,
           chainStart := ?_, notTerminal := by decide, remoteMem := by decide +kernel,
           remoteGroupId := rfl, remoteCommitSequenceId := rfl }
  intro rowid hrowid
  have hanchor : LocalCommitLogs.getLatestChainStartRowid both.localCommitLog group = some 1 := by
    decide +kernel
  rw [hanchor] at hrowid
  cases hrowid
  decide

end Runs

end LibXmtp.Groups.CommitLogWorker
