import LibXmtp.Bidi.LeasedTopics
import LibXmtp.Bidi.OwedTask

namespace LibXmtp.Bidi

open LibXmtp.Data LibXmtp.Types

variable {M : DeliveryKind → Type} {C : Type} {order : HashOrder} {W : WireBinding M C}

namespace Ledger

structure KeepsLeases (ledger ledger' : Ledger M C) : Prop where
  leases : ledger'.leases = ledger.leases
  byTopic : ledger'.byTopic = ledger.byTopic
  lastSeen : ledger'.lastSeen = ledger.lastSeen
  nextLease : ledger'.nextLease = ledger.nextLease

inductive Act (W : WireBinding M C) (ledger : Ledger M C) : Ledger M C → Prop
  | waves {ledger' : Ledger M C} (h : ledger.KeepsLeases ledger') : Act W ledger ledger'
  | register (subs : List (Topic × C)) (tx : Sender M) (hnew : tx.sent = []) :
    Act W ledger (ledger.register (subs.map Prod.fst) (.ofList subs) tx).1
  | complete (order : HashOrder) (dropped : List LeaseId) (lease : LeaseId) :
    Act W ledger (ledger.complete order W dropped lease).1
  | removeLease {lease : LeaseId} {state : LeaseState M C}
    (hstate : ledger.leases.get lease = some state) (purged : List WaveId) :
    Act W ledger (ledger.removeLease lease state purged).1
  | route (order : HashOrder) (event : WireEvent M) :
    Act W ledger (ledger.route order W event).1

def Acts (W : WireBinding M C) : Ledger M C → Ledger M C → Prop :=
  Relation.ReflTransGen (Act W)

variable {ledger ledger' ledger'' : Ledger M C} {dropped : List LeaseId} {lease : LeaseId}

theorem Acts.refl (ledger : Ledger M C) : ledger.Acts W ledger := Relation.ReflTransGen.refl

theorem Acts.trans (h : ledger.Acts W ledger') (h' : ledger'.Acts W ledger'') :
    ledger.Acts W ledger'' := Relation.ReflTransGen.trans h h'

theorem Act.acts (h : ledger.Act W ledger') : ledger.Acts W ledger' := .single h

theorem KeepsLeases.acts (h : ledger.KeepsLeases ledger') : ledger.Acts W ledger' :=
  (Act.waves h).acts

theorem Mints.keepsLeases {waves : List WaveId} (h : ledger.Mints ledger' waves) :
    ledger.KeepsLeases ledger' := by
  rw [h.only]
  exact ⟨rfl, rfl, rfl, rfl⟩

theorem acts_completeAll (ledger : Ledger M C) (dropped leases : List LeaseId) :
    ledger.Acts W (ledger.completeAll order W dropped leases).1 := by
  rw [completeAll]
  induction leases generalizing ledger dropped with
  | nil => exact .refl ledger
  | cons lease leases ih => exact (Act.complete order dropped lease).acts.trans (ih _ _)

theorem acts_deref (ledger : Ledger M C) (dropped : List LeaseId) (lease : LeaseId)
    (purged : List WaveId) : ledger.Acts W (ledger.deref order W dropped lease purged).1.1 := by
  cases hstate : ledger.leases.get lease with
  | none =>
    rw [deref_of_none hstate]
    exact .refl ledger
  | some state =>
    rw [deref_of_some hstate]
    exact (Act.removeLease hstate purged).acts.trans (acts_completeAll _ dropped _)

end Ledger

namespace LedgerTask

variable {task task' : LedgerTask M C}

section Settle

theorem acts_settleIdleWaiters (task : LedgerTask M C) :
    task.ledger.Acts W task.settleIdleWaiters.ledger := by
  rw [settleIdleWaiters]
  split
  · exact Ledger.KeepsLeases.acts ⟨rfl, rfl, rfl, rfl⟩
  · exact .refl task.ledger

theorem ledger_settleCaughtUpWaiters (task : LedgerTask M C) :
    task.settleCaughtUpWaiters.ledger = task.ledger := by
  rw [settleCaughtUpWaiters]
  split <;> rfl

theorem acts_retire (task : LedgerTask M C) (removes : List Topic) :
    task.ledger.Acts W (task.retire removes).ledger := by
  rw [retire]
  split
  · exact .refl task.ledger
  split
  · exact .refl task.ledger
  · exact Ledger.KeepsLeases.acts ⟨rfl, rfl, rfl, rfl⟩

theorem acts_dropLeasesFrom (fuel : Nat) (task : LedgerTask M C) (dropped : List LeaseId)
    (removes : List Topic) :
    task.ledger.Acts W (dropLeasesFrom order W fuel task dropped removes).1.ledger := by
  induction fuel generalizing task dropped removes with
  | zero => exact .refl task.ledger
  | succ fuel ih =>
    rw [dropLeasesFrom]
    cases dropped.getLast? with
    | none => exact .refl task.ledger
    | some lease =>
      refine .trans ?_ (ih {
        task with
        ledger := (task.ledger.deref order W dropped.dropLast lease (task.purge lease)).1.1
        outbox := task.outbox.filter fun wave => wave.lease != some lease } _ _)
      exact Ledger.acts_deref task.ledger _ lease _

theorem acts_dropAndRetire (task : LedgerTask M C) (dropped : List LeaseId) :
    task.ledger.Acts W (task.dropAndRetire order W dropped).ledger := by
  rw [dropAndRetire]
  dsimp only
  rw [ledger_settleCaughtUpWaiters]
  exact (acts_dropLeasesFrom _ task dropped []).trans
    ((acts_retire _ _).trans (acts_settleIdleWaiters _))

end Settle

section Handlers

theorem acts_reopened (task : LedgerTask M C) (orphans : List LeaseId)
    (initial : WaveOwner × Ledger.ChunkWave C) (rest : List (WaveOwner × Ledger.ChunkWave C)) :
    task.ledger.Acts W (task.reopened order W orphans initial rest).ledger := by
  rw [reopened]
  refine .trans ?_ (acts_dropAndRetire _ _)
  have hpending : task.ledger.Acts W
      { task.ledger with pendingWaves := pendingOf (initial :: rest) } :=
    Ledger.KeepsLeases.acts ⟨rfl, rfl, rfl, rfl⟩
  exact hpending.trans (Ledger.acts_completeAll _ [] _)

theorem acts_reopen (task : LedgerTask M C) (dial : Dial C) :
    task.ledger.Acts W (task.reopen order W dial).ledger := by
  rw [reopen]
  cases task.ledger.reconnectPlan W.toTransportBinding with
  | none => exact .refl task.ledger
  | some plan =>
    dsimp only
    cases hwaves : planWaves task.ledger plan with
    | mk waves ledger =>
      have hplanned : task.ledger.Acts W ledger := (mints_of_planWaves hwaves).keepsLeases.acts
      cases waves with
      | nil => exact hplanned
      | cons initial rest =>
        dsimp only
        cases dial.outcome with
        | opened =>
          exact hplanned.trans (acts_reopened
            { task with ledger, deferred := task.deferred ++ dial.absorbed } _ initial rest)
        | suspended => exact hplanned
        | shutdown => exact hplanned
        | failed retryable => cases retryable <;> exact hplanned

theorem acts_registerLease (task : LedgerTask M C) (subs : List (Topic × C)) {tx : Sender M}
    (hnew : tx.sent = []) (chunks queued : List (Ledger.ChunkWave C)) :
    task.ledger.Acts W (task.registerLease subs tx chunks queued).ledger :=
  (Ledger.Act.register subs tx hnew).acts.trans
    (Ledger.KeepsLeases.acts ⟨rfl, rfl, rfl, rfl⟩)

theorem acts_lease (task : LedgerTask M C) (subs : List (Topic × C)) {tx : Sender M}
    (hnew : tx.sent = []) (dial : Dial C) :
    task.ledger.Acts W (task.lease subs tx dial).ledger := by
  have hminted : task.ledger.Acts W (task.ledger.chunkWaves subs).2 :=
    (task.ledger.mints_chunkWaves subs).keepsLeases.acts
  rw [lease]
  cases hwaves : task.ledger.chunkWaves subs with
  | mk chunks ledger =>
    rw [hwaves] at hminted
    have hregistered (task' : LedgerTask M C) (hledger : task'.ledger = ledger)
        (chunks queued : List (Ledger.ChunkWave C)) :
        task.ledger.Acts W (task'.registerLease subs tx chunks queued).ledger := by
      rw [← hledger] at hminted
      exact hminted.trans (acts_registerLease task' subs hnew chunks queued)
    cases chunks with
    | nil => exact hregistered _ rfl [] []
    | cons initial rest =>
      dsimp only
      split
      · cases dial.outcome with
        | opened => exact hregistered _ rfl _ rest
        | failed _ => exact hminted
        | suspended => exact hregistered _ rfl _ rest
        | shutdown => exact hminted
      · exact hregistered _ rfl _ _

theorem acts_resume (task : LedgerTask M C) (waiter : Nat) (dial : Dial C) :
    task.ledger.Acts W (task.resume order W waiter dial).ledger := by
  rw [resume]
  dsimp only
  split
  · rw [ledger_settleCaughtUpWaiters]
    exact .refl task.ledger
  split
  · exact acts_settleIdleWaiters {
      task with suspended := false, resumeNotify := task.resumeNotify ++ [waiter] }
  · exact acts_reopen {
      task with suspended := false, resumeNotify := task.resumeNotify ++ [waiter] } dial

theorem acts_handle (task : LedgerTask M C) (cmd : Cmd C) (dial : Dial C) :
    task.ledger.Acts W (task.handle order W cmd dial).ledger := by
  cases cmd with
  | lease subs _ depth received => exact acts_lease task subs rfl dial
  | deref id => exact acts_dropAndRetire task [id]
  | suspend => exact .refl task.ledger
  | resume waiter => exact acts_resume task waiter dial

theorem acts_wireEvent (task : LedgerTask M C) (event : WireEvent M) :
    task.ledger.Acts W (task.wireEvent order W event).ledger := by
  have hrouted : task.ledger.Acts W
      ({ task with ledger := (task.ledger.route order W event).1 }.dropAndRetire order W
        (task.ledger.route order W event).2).ledger :=
    (Ledger.Act.route order event).acts.trans
      (acts_dropAndRetire { task with ledger := (task.ledger.route order W event).1 } _)
  cases event with
  | catchUpComplete mutateId =>
    cases mutateId with
    | zero => exact .refl task.ledger
    | succ _ => exact hrouted
  | started => exact hrouted
  | topicsLive _ => exact hrouted
  | messages _ _ _ => exact hrouted

theorem acts_perform (task : LedgerTask M C) (dial : Dial C) (step : Step M C) :
    task.ledger.Acts W (task.perform order W dial step).ledger := by
  cases step with
  | cmd cmd =>
    cases cmd with
    | none => exact .refl task.ledger
    | some cmd => exact acts_handle task cmd dial
  | wire event =>
    cases event with
    | none => exact acts_settleIdleWaiters { task with outbox := [], conn := none }
    | some event => exact acts_wireEvent task event
  | retry => exact .refl task.ledger
  | reconnect => exact acts_reopen task dial

theorem ledger_flushOutbox (task : LedgerTask M C) (n : Nat) :
    (task.flushOutbox n).ledger = task.ledger := by
  rw [flushOutbox]
  split <;> rfl

theorem Round.acts (h : Round W task task') : task.ledger.Acts W task'.ledger := by
  cases h with
  | flush n _ =>
    rw [ledger_flushOutbox]
    exact .refl task.ledger
  | next order dial step _ _ _ => exact acts_perform task dial step
  | @deferred order dial cmd cmds _ _ =>
    exact acts_handle { task with deferred := cmds } cmd dial

end Handlers

theorem Reachable.of_acts {P : Ledger M C → Prop} (h : task.Reachable W)
    (hempty : ∀ chunkCap chunkBytes, P { chunkCap, chunkBytes })
    (hact : ∀ ledger ledger', P ledger → ledger.Act W ledger' → P ledger') : P task.ledger := by
  have hacts {ledger ledger' : Ledger M C} (hacts : ledger.Acts W ledger') (h : P ledger) :
      P ledger' := by
    induction hacts with
    | refl => exact h
    | tail _ hlast ih => exact hact _ _ ih hlast
  obtain ⟨suspended, chunkCap, chunkBytes, hrun⟩ := h
  induction hrun with
  | refl => exact hempty chunkCap chunkBytes
  | tail _ hround ih => exact hacts hround.acts ih

end LedgerTask

namespace Ledger

variable {ledger ledger' : Ledger M C}

theorem KeepsLeases.same (h : ledger.KeepsLeases ledger') : ledger.SameLeases ledger' where
  asked lease := by rw [asked, asked, h.leases]
  byTopic := h.byTopic
  nextLease := h.nextLease

theorem sound_empty (chunkCap chunkBytes : Nat) :
    ({ chunkCap, chunkBytes } : Ledger M C).Sound where
  floors _ _ hstate := by cases hstate
  holds_iff _ _ := by
    constructor
    · rintro ⟨_, hholders, _⟩
      cases hholders
    · rintro ⟨_, hstate, _⟩
      cases hstate
  nonempty _ _ hholders := by cases hholders
  fresh _ hlease := by cases hlease

end Ledger

end LibXmtp.Bidi
