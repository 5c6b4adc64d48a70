import LibXmtp.Groups.WelcomeEffects
import Mathlib.Logic.Relation

namespace LibXmtp.Groups

open LibXmtp.Data LibXmtp.Db LibXmtp.Types Relation

structure WelcomeFlown where
  ctx : WelcomeContext
  flight : WelcomeFlight
  store : WelcomeStore

namespace WelcomeFlown

variable (t : WelcomeFlown)

def cursor : Cursor := t.flight.welcome.cursor

/-- The transaction of the welcome went through: its group is stored, unless it is a oneshot one. -/
def Committed : Prop :=
  ∃ group, (t.flight.run t.ctx t.store).1 = .done (.ok group) ∧
    WelcomeStored t.ctx t.flight.toXmtpWelcome group t.store (t.flight.run t.ctx t.store).2

def AlreadyApplied : Prop :=
  ∃ group, t.store.groups.findGroupBySequenceId t.cursor = some group ∧
    (t.flight.run t.ctx t.store).1 = .done (.ok (some group))

def FailedForever : Prop :=
  t.flight.cursorIncrement = true ∧ ∃ e, (t.flight.run t.ctx t.store).1 = .done (.error e) ∧
    e.isRetryable = false

def Settles : Prop := t.Committed ∨ t.AlreadyApplied ∨ t.FailedForever

end WelcomeFlown

def retries : Nat := 5

def processNewWelcome (cursor : Cursor) :
    Except WelcomeError (Option StoredGroup) → Except WelcomeError (Option StoredGroup)
  | .error (.duplicate (.welcomeId _)) => .error (.welcomeAlreadyProcessed cursor)
  | result => result

/-- A pass over welcomes: the one that is being processed, how often it has been retried, and those
that are left. -/
structure WelcomePass where
  flight : WelcomeFlight
  attempts : Nat := 0
  rest : List WelcomeMessage

namespace WelcomePass

def start : List WelcomeMessage → List WelcomePass
  | [] => []
  | welcome :: rest => [{ flight := { welcome, cursorIncrement := true }, rest }]

def queue (p : WelcomePass) : List WelcomeMessage := p.flight.welcome :: p.rest

/-- What a pass does when the processing of its welcome has come to a result. A retry strategy may
give up early, for the time that has been spent. -/
inductive Goes (p : WelcomePass) : List WelcomePass → Prop
  | retried {r : Except WelcomeError (Option StoredGroup)} {e : WelcomeError}
    (hdone : p.flight.phase = .done r)
    (herror : processNewWelcome p.flight.welcome.cursor r = .error e)
    (hretryable : e.isRetryable = true) (hattempts : p.attempts < retries) :
    Goes p [{ p with flight := { p.flight with phase := .start }, attempts := p.attempts + 1 }]
  | stopped {r : Except WelcomeError (Option StoredGroup)} {e : WelcomeError}
    (hdone : p.flight.phase = .done r)
    (herror : processNewWelcome p.flight.welcome.cursor r = .error e)
    (hretryable : e.isRetryable = true) : Goes p []
  | skipped {r : Except WelcomeError (Option StoredGroup)} {e : WelcomeError}
    (hdone : p.flight.phase = .done r)
    (herror : processNewWelcome p.flight.welcome.cursor r = .error e)
    (hforever : e.isRetryable = false) : Goes p (start p.rest)
  | processed {r : Except WelcomeError (Option StoredGroup)} {group : Option StoredGroup}
    (hdone : p.flight.phase = .done r)
    (hok : processNewWelcome p.flight.welcome.cursor r = .ok group) : Goes p (start p.rest)

end WelcomePass

structure WelcomeWorld where
  store : WelcomeStore
  server : List WelcomeMessage := []
  streams : List WelcomeFlight := []
  passes : List WelcomePass := []
  history : List WelcomeFlown := []

namespace WelcomeWorld

def fly (w : WelcomeWorld) (ctx : WelcomeContext) (f : WelcomeFlight) : WelcomeWorld :=
  { w with
    store := (f.run ctx w.store).2
    history := w.history ++ [⟨ctx, f, w.store⟩] }

def cursor (w : WelcomeWorld) (installationId : Bytes) (originator : Nat) : Nat :=
  cursorOf installationId w.store.refreshStates .welcome originator

def Settled (w : WelcomeWorld) (cursor : Cursor) : Prop :=
  ∃ t ∈ w.history, t.cursor = cursor ∧ t.Settles

def queryWelcomeMessages (w : WelcomeWorld) (installationId : Bytes) : List WelcomeMessage :=
  w.server.filter fun welcome =>
    w.cursor installationId welcome.cursor.originatorId < welcome.cursor.sequenceId

end WelcomeWorld

inductive WelcomeStep (installationId : Bytes) : WelcomeWorld → WelcomeWorld → Prop
  | delivered {w : WelcomeWorld} (welcome : WelcomeMessage)
    (hnew : ∀ old ∈ w.server, old.cursor.originatorId = welcome.cursor.originatorId →
      old.cursor.sequenceId < welcome.cursor.sequenceId) :
    WelcomeStep installationId w { w with server := w.server ++ [welcome] }
  | streamed {w : WelcomeWorld} (welcome : WelcomeMessage) :
    WelcomeStep installationId w
      { w with streams := w.streams ++ [{ welcome, cursorIncrement := false }] }
  | streamFlew {w : WelcomeWorld} {i : Nat} {f : WelcomeFlight} (hflight : w.streams[i]? = some f)
    (ctx : WelcomeContext) (hctx : ctx.installationId = installationId) :
    WelcomeStep installationId w
      { w.fly ctx f with streams := w.streams.set i (f.step ctx w.store) }
  | passStarted {w : WelcomeWorld} (limit : Nat) :
    WelcomeStep installationId w
      { w with passes := w.passes ++
        WelcomePass.start ((w.queryWelcomeMessages installationId).take limit) }
  | passFlew {w : WelcomeWorld} {i : Nat} {p : WelcomePass} (hpass : w.passes[i]? = some p)
    (ctx : WelcomeContext) (hctx : ctx.installationId = installationId) :
    WelcomeStep installationId w
      { w.fly ctx p.flight with
        passes := w.passes.set i { p with flight := p.flight.step ctx w.store } }
  | passWent {w : WelcomeWorld} {i : Nat} {p : WelcomePass} (hpass : w.passes[i]? = some p)
    {passes : List WelcomePass} (hgoes : p.Goes passes) :
    WelcomeStep installationId w { w with passes := w.passes.eraseIdx i ++ passes }
  | other {w : WelcomeWorld} (store : WelcomeStore)
    (hcursor : ∀ o, cursorOf installationId store.refreshStates .welcome o =
      w.cursor installationId o) : WelcomeStep installationId w { w with store }

def Earlier (v v' : WelcomeMessage) : Prop :=
  v.cursor.originatorId = v'.cursor.originatorId → v.cursor.sequenceId < v'.cursor.sequenceId

/-- No flight has been under way yet, and the welcomes of the server are in order. -/
structure WelcomeWorld.Fresh (w : WelcomeWorld) : Prop where
  history : w.history = []
  streams : w.streams = []
  passes : w.passes = []
  server : w.server.Pairwise Earlier

theorem WelcomeFlight.run_done {ctx : WelcomeContext} {f : WelcomeFlight} {s : WelcomeStore}
    {r : Except WelcomeError (Option StoredGroup)} (h : f.phase = .done r) : f.run ctx s = (.done r, s) := by
  rw [run, h]
  simp only [check, h]

section Fly

variable {installationId : Bytes} {ctx : WelcomeContext} {f : WelcomeFlight} {w : WelcomeWorld}

def Final (r : Except WelcomeError (Option StoredGroup)) : Prop :=
  ∀ e, r = .error e → e.isRetryable = false

theorem settled_fly {cursor : Cursor} (h : w.Settled cursor) : (w.fly ctx f).Settled cursor := by
  obtain ⟨t, hmem, hcursor, hsettles⟩ := h
  exact ⟨t, List.mem_append_left _ hmem, hcursor, hsettles⟩

theorem settled_fly_of_settles (h : WelcomeFlown.Settles ⟨ctx, f, w.store⟩) :
    (w.fly ctx f).Settled f.welcome.cursor :=
  ⟨_, List.mem_append_right _ (List.mem_singleton_self _), rfl, h⟩

theorem cursor_fly (hsound : f.Sound) (hctx : ctx.installationId = installationId) :
    (∀ o, (w.fly ctx f).cursor installationId o = w.cursor installationId o) ∨
      f.cursorIncrement = true ∧ (w.fly ctx f).Settled f.welcome.cursor ∧
        ∀ o, (w.fly ctx f).cursor installationId o =
          if f.welcome.cursor.originatorId = o ∧ f.welcome.cursor.sequenceId < 2 ^ 63 then
            max (w.cursor installationId o) f.welcome.cursor.sequenceId
          else w.cursor installationId o := by
  subst hctx
  have heffect := WelcomeFlight.effect_run ctx hsound w.store
  have hsettled := @settled_fly_of_settles ctx f w
  unfold WelcomeFlown.Settles WelcomeFlown.Committed WelcomeFlown.FailedForever at hsettled
  have hcursor (o : Nat) : (w.fly ctx f).cursor ctx.installationId o =
    WelcomeStore.welcomeCursor ctx (f.run ctx w.store).2 o := rfl
  simp only [hcursor]
  generalize (f.run ctx w.store).2 = store at heffect hsettled
  generalize (f.run ctx w.store).1 = phase at heffect hsettled
  cases heffect with
  | read _ hsame _ => exact .inl hsame
  | @failed e _ hforever hincrement _ hmoved =>
    refine .inr ⟨hincrement, hsettled (.inr (.inr ⟨hincrement, e, rfl, hforever⟩)), fun o => ?_⟩
    rw [hmoved o]
    simp only [and_true]
    rfl
  | @committed group _ hvalidated hcommitted =>
    have hmoved := hcommitted.cursor
    cases hincrement : f.cursorIncrement with
    | false =>
      refine .inl fun o => (hmoved o).trans (if_neg ?_)
      rw [hincrement]
      rintro ⟨⟨-, hmoves⟩, -⟩
      cases hmoves
    | true =>
      refine .inr ⟨rfl, hsettled (.inl ⟨group, rfl, hcommitted⟩), fun o => ?_⟩
      rw [hmoved o, hincrement]
      simp only [and_true]
      rfl

theorem settled_of_final (hsound : f.Sound) {r : Except WelcomeError (Option StoredGroup)}
    (hincrement : f.cursorIncrement = true) (hrun : (f.run ctx w.store).1 = .done r)
    (hfinal : Final r) : f.phase = .done r ∨ (w.fly ctx f).Settled f.welcome.cursor := by
  by_cases hdone : ∃ r', f.phase = .done r'
  · obtain ⟨r', hdone⟩ := hdone
    rw [WelcomeFlight.run_done hdone] at hrun
    exact .inl (hdone.trans hrun)
  · have hphase : ∀ r', f.phase ≠ .done r' := fun r' hr => hdone ⟨r', hr⟩
    refine .inr (settled_fly_of_settles ?_)
    cases r with
    | error e => exact .inr (.inr ⟨hincrement, e, hrun, hfinal e rfl⟩)
    | ok group =>
      have heffect := WelcomeFlight.effect_run ctx hsound w.store
      rw [hrun] at heffect
      unfold WelcomeFlown.Settles WelcomeFlown.Committed
      generalize (f.run ctx w.store).2 = store at heffect
      cases heffect with
      | read _ _ hresult =>
        obtain ⟨-, found, rfl, hfound⟩ := (hresult group rfl).resolve_right (hphase _)
        exact .inr (.inl ⟨found, hfound, hrun⟩)
      | committed hvalidated hcommitted => exact .inl ⟨group, hrun, hcommitted⟩

end Fly

end LibXmtp.Groups
