import LibXmtp.Data.Result
import LibXmtp.Data.Session
import Mathlib.Algebra.Group.Nat.Defs
import Mathlib.Data.Int.Order.Basic
import Mathlib.Data.List.Infix

namespace LibXmtp.D14n

open LibXmtp.Data

structure MigrationCutover where
  cutoverNs : Int64 := Int64.maxValue
  lastCheckedNs : Int64 := 0
  hasMigrated : Bool := false

inductive Route
  | v3
  | xmtpd
  deriving DecidableEq

inductive ApiClientError
  | clientWithEndpoint (endpoint source : String)
  | client (source : String)
  | other
  deriving DecidableEq

def ApiClientError.networkError : ApiClientError → Option String
  | clientWithEndpoint _ source => some source
  | client source => some source
  | other => none

def migrationMessages : List String :=
  ["publishing to XMTP V3 is no longer available. Please upgrade your client to XMTP D14N.",
    "XMTP V3 streaming is no longer available. Please upgrade your client to XMTP D14N."]

def ApiClientError.isMigration (e : ApiClientError) : Bool :=
  e.networkError.any fun text => migrationMessages.any fun message =>
    decide (message.toList <:+: text.toList)

def cutoverRefreshTime : Int64 := 6 * 60 * 60 * 1000000000

def saturatingSub (a b : Int64) : Int64 :=
  Int64.ofInt (max Int64.minValue.toInt (min Int64.maxValue.toInt (a.toInt - b.toInt)))

/-- `checkedOnce` says whether `always_check_once` has been set. -/
structure MigrationClient where
  store : MigrationCutover := {}
  checkedOnce : Bool := false

inductive StoreCall
  | hasMigrated
  | getCutoverNs
  | getLastCheckedNs
  | setCutoverNs
  | setLastCheckedNs
  | setHasMigrated

/-- What a call finds: the clock as it starts and after a refresh, what the server answers to the
refresh, and which calls of the store fail. -/
structure Reading where
  now : Int64
  fetched : Except ApiClientError UInt64
  checkedAt : Int64
  fails : StoreCall → Bool := fun _ => false

def Reading.Small (r : Reading) : Prop :=
  ∀ timestampNs, r.fetched = .ok timestampNs → timestampNs.toNat < 2 ^ 63

namespace MigrationClient

abbrev Call := Session MigrationClient ApiClientError

def read (r : Reading) (call : StoreCall) : Call MigrationCutover :=
  if r.fails call then throw .other else return (← get).store

def write (r : Reading) (call : StoreCall) (f : MigrationCutover → MigrationCutover) : Call Unit :=
  if r.fails call then throw .other else modify fun client => { client with store := f client.store }

def setAlwaysCheckOnce : Call Bool := do
  let client ← get
  set { client with checkedOnce := true }
  return !client.checkedOnce

def refreshCutover (r : Reading) : Call Int64 := do
  let timestampNs ← Session.ofExcept r.fetched
  let cutoverNs := timestampNs.toInt64
  write r .setCutoverNs fun store => { store with cutoverNs }
  write r .setLastCheckedNs fun store => { store with lastCheckedNs := r.checkedAt }
  return cutoverNs

def setHasMigrated (r : Reading) : Call Unit :=
  write r .setHasMigrated fun store => { store with hasMigrated := true }

/-- `always_check_once` is only set when the last refresh is not too long ago. -/
def shouldRefresh (r : Reading) (lastChecked : Int64) : Call Bool :=
  if cutoverRefreshTime ≤ saturatingSub r.now lastChecked then return true else setAlwaysCheckOnce

def currentCutover (r : Reading) (refresh : Bool) (stored : Int64) : Call Int64 :=
  if refresh then refreshCutover r else return stored

def route (r : Reading) (cutoverNs : Int64) : Call Route := do
  if cutoverNs ≤ r.now then
    setHasMigrated r
    return .xmtpd
  else return .v3

def chooseClient (r : Reading) : Call Route := do
  let migrated ← read r .hasMigrated
  if migrated.hasMigrated then return .xmtpd
  else
    let stored ← read r .getCutoverNs
    let checked ← read r .getLastCheckedNs
    let refresh ← shouldRefresh r checked.lastCheckedNs
    let cutoverNs ← currentCutover r refresh stored.cutoverNs
    route r cutoverNs

/-- The cutover that the store holds is the one it held or the one that was fetched. -/
def Moved (r : Reading) (c c' : MigrationClient) : Prop :=
  c'.store.cutoverNs = c.store.cutoverNs ∨
    ∃ timestampNs, r.fetched = .ok timestampNs ∧ c'.store.cutoverNs = timestampNs.toInt64

inductive Chosen (r : Reading) (c : MigrationClient) :
    Except ApiClientError Route → MigrationClient → Prop
  | failed : c'.store = c.store → Chosen r c (.error e) c'
  | refreshed : Moved r c c' → c.store.hasMigrated = false → c'.store.hasMigrated = false →
      Chosen r c (.error e) c'
  | migrated : c.store.hasMigrated = true → c'.store = c.store → Chosen r c (.ok .xmtpd) c'
  | cutover : Moved r c c' → c'.store.hasMigrated = true → c'.store.cutoverNs ≤ r.now →
      Chosen r c (.ok .xmtpd) c'
  | v3 : Moved r c c' → c.store.hasMigrated = false → c'.store.hasMigrated = false →
      Chosen r c (.ok .v3) c'

variable {r : Reading} {c : MigrationClient}

open Session

theorem triple_read (call : StoreCall) : Triple (·.store = c.store) (read r call)
    (onOk (fun store c' => c'.store = c.store ∧ store = c.store) (Chosen r c)) := by
  constructor
  intro c' hc'
  rw [read]
  split
  · exact .failed hc'
  · exact ⟨hc', hc'⟩

theorem triple_shouldRefresh (lastChecked : Int64) :
    Triple (·.store = c.store) (shouldRefresh r lastChecked)
      (onOk (fun _ c' => c'.store = c.store) (Chosen r c)) := by
  constructor
  intro c' hc'
  rw [shouldRefresh]
  split
  · exact hc'
  · exact hc'

def Known (r : Reading) (c : MigrationClient) (cutoverNs : Int64) (c' : MigrationClient) : Prop :=
  c'.store.cutoverNs = cutoverNs ∧ Moved r c c' ∧ c'.store.hasMigrated = c.store.hasMigrated

theorem triple_write {P : MigrationClient → Prop} {Q : Unit → MigrationClient → Prop}
    (call : StoreCall) (f : MigrationCutover → MigrationCutover)
    (herror : ∀ c', P c' → Chosen r c (.error .other) c')
    (hok : ∀ c', P c' → Q () { c' with store := f c'.store }) :
    Triple P (write r call f) (onOk Q (Chosen r c)) := by
  constructor
  intro c' hc'
  rw [write]
  split
  · exact herror c' hc'
  · exact hok c' hc'

theorem triple_refreshCutover (hmigrated : c.store.hasMigrated = false) :
    Triple (·.store = c.store) (refreshCutover r) (onOk (Known r c) (Chosen r c)) := by
  refine Triple.ofExcept_bind (fun e c' hc' => .failed hc')
    fun timestampNs hfetched => ?_
  have hknown (c' : MigrationClient) (hc' : c'.store.cutoverNs = timestampNs.toInt64)
      (hsame : c'.store.hasMigrated = c.store.hasMigrated) :
      Known r c timestampNs.toInt64 c' :=
    ⟨hc', .inr ⟨timestampNs, hfetched, hc'⟩, hsame⟩
  apply Triple.bind (R := fun _ => Known r c timestampNs.toInt64)
  · refine triple_write _ _ ?_ ?_
    · intro c' hc'
      exact .failed hc'
    · intro c' hc'
      exact hknown _ rfl (by rw [← hc'])
  · intro _
    apply Triple.bind (R := fun _ => Known r c timestampNs.toInt64)
    · refine triple_write _ _ ?_ ?_
      · intro c' hc'
        exact .refreshed hc'.2.1 hmigrated (hc'.2.2.trans hmigrated)
      · intro c' hc'
        exact hknown _ hc'.1 hc'.2.2
    · intro _
      exact Triple.pure fun _ h => h

theorem triple_currentCutover (hmigrated : c.store.hasMigrated = false) (refresh : Bool) :
    Triple (·.store = c.store) (currentCutover r refresh c.store.cutoverNs)
      (onOk (Known r c) (Chosen r c)) := by
  rw [currentCutover]
  split
  · exact triple_refreshCutover hmigrated
  · exact Triple.pure fun c' hc' => ⟨by rw [hc'], .inl (by rw [hc']), by rw [hc']⟩

theorem triple_route (hmigrated : c.store.hasMigrated = false) (cutoverNs : Int64) :
    Triple (Known r c cutoverNs) (route r cutoverNs) (Chosen r c) := by
  rw [route]
  split
  · rename_i hle
    apply Triple.bind (R := fun _ c' => Moved r c c' ∧ c'.store.hasMigrated = true ∧
      c'.store.cutoverNs ≤ r.now)
    · refine triple_write _ _ ?_ ?_
      · intro c' hc'
        exact .refreshed hc'.2.1 hmigrated (hc'.2.2.trans hmigrated)
      · intro c' hc'
        exact ⟨hc'.2.1, rfl, hc'.1 ▸ hle⟩
    · intro _
      exact Triple.pure fun c' hc' => .cutover hc'.1 hc'.2.1 hc'.2.2
  · exact Triple.pure fun c' hc' => .v3 hc'.2.1 hmigrated (hc'.2.2.trans hmigrated)

theorem triple_chooseClient : Triple (·.store = c.store) (chooseClient r) (Chosen r c) := by
  apply Triple.bind (triple_read _)
  intro migrated
  apply Triple.assume
  rintro rfl
  split
  · rename_i hmigrated
    exact Triple.pure fun c' hc' => .migrated hmigrated hc'
  · rename_i hmigrated
    apply Triple.bind (triple_read _)
    intro stored
    apply Triple.assume
    rintro rfl
    apply Triple.bind (triple_read _)
    intro checked
    apply Triple.assume
    rintro rfl
    apply Triple.bind (triple_shouldRefresh _)
    intro refresh
    have hmigrated : c.store.hasMigrated = false := Bool.eq_false_iff.mpr hmigrated
    exact Triple.bind (triple_currentCutover hmigrated refresh) (triple_route hmigrated)

theorem chosen_chooseClient (r : Reading) (c : MigrationClient) :
    Chosen r c ((chooseClient r).outcome c).1 ((chooseClient r).outcome c).2 :=
  triple_chooseClient.run c rfl

section Chosen

variable {c' : MigrationClient} {result : Except ApiClientError Route}

theorem Chosen.moved (h : Chosen r c result c') : Moved r c c' := by
  cases h with
  | failed hstore => exact .inl (by rw [hstore])
  | refreshed hmoved => exact hmoved
  | migrated _ hstore => exact .inl (by rw [hstore])
  | cutover hmoved => exact hmoved
  | v3 hmoved => exact hmoved

theorem Chosen.reason (h : Chosen r c result c') (hmigrated : c'.store.hasMigrated = true) :
    c'.store = c.store ∨ c'.store.cutoverNs ≤ r.now := by
  cases h with
  | failed hstore => exact .inl hstore
  | refreshed _ _ hnot => exact absurd hmigrated (Bool.eq_false_iff.mp hnot)
  | migrated _ hstore => exact .inl hstore
  | cutover _ _ hle => exact .inr hle
  | v3 _ _ hnot => exact absurd hmigrated (Bool.eq_false_iff.mp hnot)

theorem Chosen.keeps (h : Chosen r c result c') (hmigrated : c.store.hasMigrated = true) :
    c'.store.hasMigrated = true := by
  cases h with
  | failed hstore => rw [hstore, hmigrated]
  | refreshed _ hnot => exact absurd hmigrated (Bool.eq_false_iff.mp hnot)
  | migrated _ hstore => rw [hstore, hmigrated]
  | cutover _ hmigrated' => exact hmigrated'
  | v3 _ hnot => exact absurd hmigrated (Bool.eq_false_iff.mp hnot)

theorem Chosen.of_xmtpd (h : Chosen r c (.ok .xmtpd) c') : c'.store.hasMigrated = true := by
  cases h with
  | migrated hmigrated hstore => rw [hstore, hmigrated]
  | cutover _ hmigrated => exact hmigrated

theorem Chosen.of_v3 (h : Chosen r c (.ok .v3) c') : c.store.hasMigrated = false := by
  cases h with
  | v3 _ hnot => exact hnot

end Chosen

end MigrationClient

end LibXmtp.D14n
