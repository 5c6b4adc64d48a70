import LibXmtp.Groups.LeaveRequests
import Mathlib.Logic.Relation

namespace LibXmtp.Groups

open LibXmtp.Data LibXmtp.Db Relation

/-- `XmtpWelcome::commit` for a group that is stored. The list of those that have asked to leave is
not looked at. -/
def LeaveStore.welcome (roster : GroupRoster) (s : LeaveStore) : LeaveStore :=
  if s.membershipState = .pendingRemove then { s with roster, membershipState := .allowed }
  else { s with roster }

structure SentRequest extends LeaveRequest where
  joins : Nat

structure MembershipWorld where
  store : LeaveStore
  phase : GroupHandle.RemovalPhase := .done
  joins : String → Nat
  sent : List SentRequest := []
  out : Bool := false

inductive MembershipAction
  | requested (request : LeaveRequest)
  | processed (now : Int) (request : SentRequest)
  | committed (changes : InboxChanges)
  | dropped
  | joinedUnseen (inboxId : String)
  | welcomed (roster : GroupRoster)
  | started
  | proceeded
  | failed
  | left (ensureNotPaused sendMessage : Except LeaveError Unit) (id : Bytes)

namespace MembershipWorld

variable (g : GroupHandle) (w : MembershipWorld)

def join (inboxIds : List String) (x : String) : Nat :=
  if x ∈ inboxIds then w.joins x + 1 else w.joins x

def send (request : LeaveRequest) : MembershipWorld :=
  { w with sent := w.sent ++ [{ request with joins := w.joins request.senderInboxId }] }

def act : MembershipAction → MembershipWorld
  | .requested request => w.send request
  | .processed now request =>
    { w with store := g.processLeaveRequestMessage now request.toLeaveRequest w.store }
  | .committed changes =>
    { w with
      store := g.processCommit changes w.store
      joins := w.join changes.addedInboxes
      out := w.out || changes.removedInboxes.contains g.inboxId }
  | .dropped => { w with out := true }
  | .joinedUnseen inboxId => { w with joins := w.join [inboxId] }
  | .welcomed roster =>
    { w with store := w.store.welcome roster, joins := w.join [g.inboxId], out := false }
  | .started => if w.phase = .done then { w with phase := .started } else w
  | .proceeded =>
    let (phase, store) := g.processPendingSelfRemovals w.store w.phase
    { w with phase, store }
  | .failed => { w with phase := .done }
  | .left ensureNotPaused sendMessage id =>
    match g.leaveGroup ensureNotPaused sendMessage w.store with
    | .ok true => w.send { id, senderInboxId := g.inboxId }
    | _ => w

/-- What can happen. A commit is merged by a client that is in the group, as far as it knows, and
adds those who are not in it. The removal commit of a client that is out is not accepted. -/
def Possible : MembershipAction → Prop
  -- extract_message_sender refuses those who are not members; an own message is known by its intent
  | .processed _ request => request ∈ w.sent ∧
      (request.senderInboxId = g.inboxId ∨ request.senderInboxId ∈ w.store.roster.members)
  | .committed changes => w.store.roster.isActive = true ∧ (w.out = true → changes.addedInboxes = []) ∧
      ∀ x ∈ changes.addedInboxes, x ∉ w.store.roster.members
  | .joinedUnseen inboxId => w.out = true ∧ inboxId ≠ g.inboxId
  | .welcomed roster => w.out = true ∧ roster.isActive = true ∧ g.inboxId ∈ roster.members
  | .proceeded => ∀ validRemovals, w.phase = .removing validRemovals → w.out = false
  | _ => True

def AskedSinceJoin (x : String) : Prop :=
  ∃ request ∈ w.sent, request.senderInboxId = x ∧ request.joins = w.joins x

instance decidableAskedSinceJoin (x : String) : Decidable (w.AskedSinceJoin x) :=
  inferInstanceAs (Decidable (∃ request ∈ w.sent, request.senderInboxId = x ∧ request.joins = w.joins x))

/-- `remove_members_pending_removal` removes those who have asked since they last joined. -/
def RemovesAsked : MembershipAction → Prop
  | .proceeded => ∀ validRemovals, w.phase = .removing validRemovals →
      ∀ x ∈ validRemovals, x ∈ w.store.roster.members → w.AskedSinceJoin x
  | _ => True

/-- A client that has rejoined and is told that it leaves has asked since it last joined. -/
def LeavesAsked : MembershipAction → Prop
  | .left ensureNotPaused sendMessage id => 2 ≤ w.joins g.inboxId →
      (g.leaveGroup ensureNotPaused sendMessage w.store).isOk = true →
      (w.act g (.left ensureNotPaused sendMessage id)).AskedSinceJoin g.inboxId
  | _ => True

def Listed (x : String) : Prop := x ∈ g.pendingRemoveList w.store ∨ x ∈ w.phase.held

/-- When a step of the run is safe: no request of an earlier membership is processed for a member,
nobody is added again who is still listed, and a welcome finds nobody listed, of those who are in
the group, that has not asked since. -/
def Careful : MembershipAction → Prop
  | .processed _ request => request.senderInboxId ∈ w.store.roster.members →
      (w.out = true → request.senderInboxId = g.inboxId) → w.AskedSinceJoin request.senderInboxId
  | .committed changes => ∀ x ∈ changes.addedInboxes, ¬ w.Listed g x
  | .welcomed roster => ∀ x ∈ roster.members, w.Listed g x → x ≠ g.inboxId ∧ w.AskedSinceJoin x
  | _ => True

structure Fresh : Prop where
  list : g.pendingRemoveList w.store = []
  phase : w.phase = .done

end MembershipWorld

def MembershipStep (g : GroupHandle) (w w' : MembershipWorld) : Prop :=
  ∃ action, w.Possible g action ∧ w' = w.act g action

def CarefulMembershipStep (g : GroupHandle) (w w' : MembershipWorld) : Prop :=
  ∃ action, w.Possible g action ∧ w.Careful g action ∧ w' = w.act g action

namespace MembershipWorld

variable {g : GroupHandle} {w : MembershipWorld} {x : String}

/-- Who is listed and a member has asked since it last joined. Of a client that is out, only its own
request is known. -/
def Current (g : GroupHandle) (w : MembershipWorld) : Prop :=
  ∀ x, w.Listed g x → x ∈ w.store.roster.members → (w.out = true → x = g.inboxId) → w.AskedSinceJoin x

theorem Fresh.current (h : w.Fresh g) : w.Current g := by
  rintro x (hlisted | hheld) _ _
  · rw [h.list] at hlisted
    cases hlisted
  · rw [h.phase] at hheld
    cases hheld

theorem AskedSinceJoin.send (h : w.AskedSinceJoin x) (request : LeaveRequest) :
    (w.send request).AskedSinceJoin x := by
  obtain ⟨old, hold, hsender, hjoins⟩ := h
  exact ⟨old, List.mem_append_left _ hold, hsender, hjoins⟩

theorem askedSinceJoin_send (w : MembershipWorld) (request : LeaveRequest) :
    (w.send request).AskedSinceJoin request.senderInboxId :=
  ⟨_, List.mem_append_right _ List.mem_cons_self, rfl, rfl⟩

theorem Current.send (h : w.Current g) (request : LeaveRequest) : (w.send request).Current g :=
  fun x hlisted hmember hout => (h x hlisted hmember hout).send request

theorem AskedSinceJoin.joined {w' : MembershipWorld} {inboxIds : List String} (h : w.AskedSinceJoin x)
    (hsent : w'.sent = w.sent) (hjoins : w'.joins = w.join inboxIds) (hx : x ∉ inboxIds) :
    w'.AskedSinceJoin x := by
  obtain ⟨request, hrequest, hsender, heq⟩ := h
  refine ⟨request, hsent ▸ hrequest, hsender, ?_⟩
  rw [hjoins, join, if_neg hx, heq]

theorem roster_welcome (roster : GroupRoster) (s : LeaveStore) : (s.welcome roster).roster = roster := by
  unfold LeaveStore.welcome
  split <;> rfl

theorem pendingRemoveList_welcome (roster : GroupRoster) (s : LeaveStore) :
    g.pendingRemoveList (s.welcome roster) = g.pendingRemoveList s := by
  unfold LeaveStore.welcome
  split <;> rfl

theorem Current.processed {now : Int} {request : SentRequest} (h : w.Current g)
    (hcareful : w.Careful g (.processed now request)) : (w.act g (.processed now request)).Current g := by
  have hrequested := g.requested_processLeaveRequestMessage now request.toLeaveRequest w.store
  intro x hlisted hmember hout
  simp only [act, hrequested.roster] at hmember
  rcases hlisted with hlisted | hheld
  · rcases (hrequested.list x).mp hlisted with hlisted | rfl
    · exact h x (.inl hlisted) hmember hout
    · exact hcareful hmember hout
  · exact h x (.inr hheld) hmember hout

theorem Current.committed {changes : InboxChanges} (h : w.Current g)
    (hcareful : w.Careful g (.committed changes)) : (w.act g (.committed changes)).Current g := by
  have hmerged := g.merged_processCommit changes w.store
  intro x hlisted hmember hout
  have hlisted' : w.Listed g x := hlisted.imp_left fun hlisted => ((hmerged.list x).mp hlisted).1
  have hadded : x ∉ changes.addedInboxes := fun hadded => hcareful x hadded hlisted'
  simp only [act, hmerged.roster, GroupHandle.mem_members_merge] at hmember
  have hout' : w.out = true → x = g.inboxId := fun htrue => hout (by simp [act, htrue])
  exact (h x hlisted' (hmember.resolve_right hadded).1 hout').joined rfl rfl hadded

theorem Current.welcomed {roster : GroupRoster} (hcareful : w.Careful g (.welcomed roster)) :
    (w.act g (.welcomed roster)).Current g := by
  intro x hlisted hmember _
  simp only [act, roster_welcome] at hmember
  have hlisted' : w.Listed g x :=
    hlisted.imp_left fun hlisted => pendingRemoveList_welcome roster w.store ▸ hlisted
  obtain ⟨hother, hasked⟩ := hcareful x hmember hlisted'
  exact hasked.joined rfl rfl fun hself => hother (List.mem_singleton.mp hself)

theorem Current.proceeded (h : w.Current g) : (w.act g .proceeded).Current g := by
  have hshrinks := g.shrinks_processPendingSelfRemovals w.store w.phase
  intro x hlisted hmember hout
  have hlisted' : w.Listed g x := by
    rcases hlisted with hlisted | hheld
    · exact .inl (hshrinks.list hlisted)
    · exact (GroupHandle.held_processPendingSelfRemovals hheld).symm
  exact h x hlisted' (hshrinks.members hmember) hout

theorem Current.act {action : MembershipAction} (h : w.Current g) (hpossible : w.Possible g action)
    (hcareful : w.Careful g action) : (w.act g action).Current g := by
  cases action with
  | requested request => exact h.send request
  | processed now request => exact h.processed hcareful
  | committed changes => exact h.committed hcareful
  | dropped => exact fun x hlisted hmember hout => h x hlisted hmember fun _ => hout rfl
  | joinedUnseen inboxId =>
    intro x hlisted hmember hout
    have hself : x = g.inboxId := hout hpossible.1
    refine (h x hlisted hmember hout).joined rfl rfl fun hjoined => hpossible.2 ?_
    rw [← List.mem_singleton.mp hjoined, hself]
  | welcomed roster => exact Current.welcomed hcareful
  | started =>
    simp only [MembershipWorld.act]
    split
    · rintro x (hlisted | hheld) hmember hout
      · exact h x (.inl hlisted) hmember hout
      · cases hheld
    · exact h
  | proceeded => exact h.proceeded
  | failed =>
    rintro x (hlisted | hheld) hmember hout
    · exact h x (.inl hlisted) hmember hout
    · cases hheld
  | left ensureNotPaused sendMessage id =>
    simp only [MembershipWorld.act]
    split
    · exact h.send _
    · exact h

theorem Current.removesAsked {action : MembershipAction} (h : w.Current g)
    (hpossible : w.Possible g action) : w.RemovesAsked action := by
  cases action with
  | proceeded =>
    intro validRemovals hphase x hx hmember
    refine h x (.inr ?_) hmember fun hout => ?_
    · rw [hphase]
      exact hx
    · rw [hpossible validRemovals hphase] at hout
      cases hout
  | _ => trivial

theorem Current.leavesAsked (h : w.Current g) (action : MembershipAction) : w.LeavesAsked g action := by
  cases action with
  | left ensureNotPaused sendMessage id =>
    intro _ hok
    cases hleave : g.leaveGroup ensureNotPaused sendMessage w.store with
    | error e =>
      rw [hleave] at hok
      cases hok
    | ok asks =>
      cases asks with
      | true =>
        simp only [MembershipWorld.act, hleave]
        exact w.askedSinceJoin_send { id, senderInboxId := g.inboxId }
      | false =>
        obtain ⟨hmember, hlisted⟩ := GroupHandle.leaveGroup_silent hleave
        simp only [MembershipWorld.act, hleave]
        exact h g.inboxId (.inl hlisted) hmember fun _ => rfl
  | _ => trivial

end MembershipWorld

/-- In a run whose steps are all safe, a leave request counts for the membership it was sent in. -/
theorem leave_requests_of_one_membership {g : GroupHandle} {w w' : MembershipWorld} (hfresh : w.Fresh g)
    (hrun : ReflTransGen (CarefulMembershipStep g) w w') {action : MembershipAction}
    (hpossible : w'.Possible g action) : w'.RemovesAsked action ∧ w'.LeavesAsked g action := by
  have hcurrent : w'.Current g := by
    clear hpossible
    induction hrun with
    | refl => exact hfresh.current
    | tail _ hstep ih =>
      obtain ⟨action, hpossible, hcareful, rfl⟩ := hstep
      exact ih.act hpossible hcareful
  exact ⟨hcurrent.removesAsked hpossible, hcurrent.leavesAsked action⟩

namespace MembershipSample

def alice : GroupHandle := ⟨[1], "alice"⟩

def carol : GroupHandle := ⟨[1], "carol"⟩

def roster : GroupRoster := { members := ["alice", "bob", "carol"], superAdmins := ["alice"] }

def start : MembershipWorld where
  store := { roster }
  joins _ := 1

theorem fresh_start (g : GroupHandle) : start.Fresh g := ⟨rfl, rfl⟩

def after (g : GroupHandle) (actions : List MembershipAction) : MembershipWorld :=
  actions.foldl (·.act g) start

def unseen : List MembershipAction :=
  [.left (.ok ()) (.ok ()) [2], .processed 0 ⟨⟨[2], "carol"⟩, 1⟩, .dropped, .welcomed roster]

def Each (P : MembershipWorld → MembershipAction → Prop) (g : GroupHandle) :
    MembershipWorld → List MembershipAction → Prop
  | _, [] => True
  | w, action :: actions => P w action ∧ Each P g (w.act g action) actions

theorem reaches_of_each {P : MembershipWorld → MembershipAction → Prop}
    {R : MembershipWorld → MembershipWorld → Prop} {g : GroupHandle}
    (hstep : ∀ w action, P w action → R w (w.act g action)) {actions : List MembershipAction}
    {w : MembershipWorld} (h : Each P g w actions) :
    ReflTransGen R w (actions.foldl (·.act g) w) := by
  induction actions generalizing w with
  | nil => exact .refl
  | cons action actions ih => exact .head (hstep w action h.1) (ih h.2)

theorem membershipStep_of_possible {g : GroupHandle} (w : MembershipWorld) (action : MembershipAction)
    (h : w.Possible g action) : MembershipStep g w (w.act g action) := ⟨action, h, rfl⟩

theorem possible_unseen : Each (MembershipWorld.Possible carol) carol start unseen :=
  ⟨trivial, ⟨List.mem_cons_self, .inl rfl⟩, trivial, ⟨rfl, rfl, by decide +kernel⟩, trivial⟩

def inTime : List MembershipAction :=
  [.requested ⟨[2], "bob"⟩, .processed 0 ⟨⟨[2], "bob"⟩, 1⟩, .started, .proceeded, .proceeded, .proceeded]

def seen : List MembershipAction :=
  [.left (.ok ()) (.ok ()) [2], .processed 0 ⟨⟨[2], "carol"⟩, 1⟩,
    .committed { removedInboxes := ["carol"] }, .welcomed roster]

def Safe (g : GroupHandle) (w : MembershipWorld) (action : MembershipAction) : Prop :=
  w.Possible g action ∧ w.Careful g action

theorem carefulStep_of_safe {g : GroupHandle} (w : MembershipWorld) (action : MembershipAction)
    (h : Safe g w action) : CarefulMembershipStep g w (w.act g action) := ⟨action, h.1, h.2, rfl⟩

theorem safe_inTime : Each (Safe alice) alice start inTime :=
  ⟨⟨trivial, trivial⟩,
    ⟨⟨List.mem_cons_self, .inr (by decide +kernel)⟩, fun _ _ => by decide +kernel⟩, ⟨trivial, trivial⟩,
    ⟨fun _ _ => by decide +kernel, trivial⟩, ⟨fun _ _ => by decide +kernel, trivial⟩,
    ⟨fun _ _ => by decide +kernel, trivial⟩, trivial⟩

theorem safe_seen : Each (Safe carol) carol start seen := by
  refine ⟨⟨trivial, trivial⟩, ⟨⟨List.mem_cons_self, .inl rfl⟩, fun _ _ => by decide +kernel⟩,
    ⟨⟨rfl, fun _ => rfl, fun _ h => absurd h List.not_mem_nil⟩, fun _ h => absurd h List.not_mem_nil⟩,
    ⟨⟨by decide +kernel, rfl, by decide +kernel⟩, ?_⟩, trivial⟩
  -- the commit has taken her off the list
  have hlist : carol.pendingRemoveList (after carol (seen.take 3)).store = [] := by decide +kernel
  have hphase : (after carol (seen.take 3)).phase.held = [] := by decide +kernel
  rintro x - (hlisted | hheld)
  · exact absurd (hlist ▸ hlisted : x ∈ []) List.not_mem_nil
  · exact absurd (hphase ▸ hheld : x ∈ []) List.not_mem_nil

end MembershipSample

open MembershipSample in
theorem leave_requests_of_one_membership_sample :
    (after alice inTime).phase = .removing ["bob"] ∧ (after alice inTime).RemovesAsked .proceeded ∧
    (after carol seen).joins "carol" = 2 ∧
    (after carol seen).LeavesAsked carol (.left (.ok ()) (.ok ()) [3]) := by
  refine ⟨by decide +kernel, ?_, by decide +kernel, ?_⟩
  · have hrun := reaches_of_each carefulStep_of_safe safe_inTime
    have hpossible : (after alice inTime).Possible alice .proceeded := fun _ _ => by decide +kernel
    exact (leave_requests_of_one_membership (fresh_start alice) hrun hpossible).1
  · have hrun := reaches_of_each carefulStep_of_safe safe_seen
    have hpossible : (after carol seen).Possible carol (.left (.ok ()) (.ok ()) [3]) := trivial
    exact (leave_requests_of_one_membership (fresh_start carol) hrun hpossible).2

open MembershipSample in
/-- Carol's request of the membership before keeps her from asking again. -/
theorem leave_requests_outlive_memberships :
    ¬ ∀ (g : GroupHandle) (w w' : MembershipWorld) (action : MembershipAction), w.Fresh g →
      ReflTransGen (MembershipStep g) w w' → w'.Possible g action →
      w'.RemovesAsked action ∧ w'.LeavesAsked g action := by
  intro h
  have hrun := reaches_of_each membershipStep_of_possible possible_unseen
  have hasked : ¬ ((after carol unseen).act carol (.left (.ok ()) (.ok ()) [3])).AskedSinceJoin "carol" := by
    decide +kernel
  exact hasked ((h carol start (after carol unseen) (.left (.ok ()) (.ok ()) [3]) (fresh_start carol) hrun
    trivial).2 (by decide +kernel) (by decide +kernel))

end LibXmtp.Groups
