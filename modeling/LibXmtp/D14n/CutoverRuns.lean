import LibXmtp.D14n.MigrationClient

/-! Where calls are routed over the lives of a store: no call goes to the new network before the
cutover, and none goes back. -/

universe u

namespace LibXmtp.D14n.MigrationClient

open LibXmtp.Data

/-- A client that was chosen, or an error, with the cutover that had been fetched last and whether a
write had been rejected before. -/
structure Choice where
  now : Int64
  lastFetched : UInt64
  rejected : Bool
  result : Except ApiClientError Route

/-- A store and what has been done over it. A write is the runs of its request. -/
structure History (R : Type) where
  client : MigrationClient
  clock : Int64
  rejected : Bool := false
  choices : List Choice := []
  writes : List (List (Except ApiClientError R)) := []

/-- A write finds what its requests find, and each network answers each of them. -/
structure WriteReading (R : Type) where
  first : Reading
  second : Reading
  answer : Route → Except ApiClientError R
  answerAgain : Route → Except ApiClientError R

inductive Event (R : Type)
  | restart
  | choose (reading : Reading)
  | write (reading : WriteReading R)

variable {R : Type}

namespace History

def choose (r : Reading) (h : History R) : Except ApiClientError Route × History R :=
  let chosen := (chooseClient r).outcome h.client
  let choice : Choice :=
    { now := r.now
      lastFetched := chosen.2.store.cutoverNs.toUInt64
      rejected := h.rejected
      result := chosen.1 }
  (chosen.1, { h with client := chosen.2, clock := r.checkedAt, choices := h.choices ++ [choice] })

/-- The request of a write, as every write has it: it goes to the client that is chosen. -/
def request (r : Reading) (answer : Route → Except ApiClientError R) (h : History R) :
    Except ApiClientError R × History R :=
  let chosen := h.choose r
  (chosen.1.bind answer, chosen.2)

/-- `write_with_refresh`, with the runs of the request that it has made. -/
def writeWithRefresh (w : WriteReading R) (h : History R) :
    Except ApiClientError R × History R :=
  let out := h.request w.first w.answer
  match out.1 with
  | .error e =>
    if e.isMigration then
      let migrated := (setHasMigrated w.first).outcome out.2.client
      let h' := { out.2 with client := migrated.2, rejected := true }
      match migrated.1 with
      | .error e' => (.error e', { h' with writes := h'.writes ++ [[out.1]] })
      | .ok _ =>
        let again := h'.request w.second w.answerAgain
        (again.1, { again.2 with writes := again.2.writes ++ [[out.1, again.1]] })
    else (out.1, { out.2 with writes := out.2.writes ++ [[out.1]] })
  | .ok _ => (out.1, { out.2 with writes := out.2.writes ++ [[out.1]] })

def restart (h : History R) : History R := { h with client := { store := h.client.store } }

def handle (h : History R) : Event R → History R
  | .restart => h.restart
  | .choose r => (h.choose r).2
  | .write w => (h.writeWithRefresh w).2

end History

def Event.After (clock : Int64) : Event R → Prop
  | .restart => True
  | .choose r => clock ≤ r.now ∧ r.now ≤ r.checkedAt
  | .write w => clock ≤ w.first.now ∧ w.first.now ≤ w.first.checkedAt ∧
      w.first.checkedAt ≤ w.second.now ∧ w.second.now ≤ w.second.checkedAt

def Event.Small : Event R → Prop
  | .restart => True
  | .choose r => r.Small
  | .write w => w.first.Small ∧ w.second.Small

def Handles (h : History R) (e : Event R) (h' : History R) : Prop :=
  e.After h.clock ∧ h' = h.handle e

/-- No call is routed early or back, and no request is run again but after a rejection. -/
structure Safe (migrated : Bool) (h : History R) : Prop where
  notEarly : ∀ c ∈ h.choices, c.result = .ok .xmtpd →
    (c.lastFetched.toNat : Int) ≤ c.now.toInt ∨ c.rejected = true ∨ migrated = true
  notBack : h.choices.Pairwise fun a b => a.result = .ok .xmtpd → b.result ≠ .ok .v3
  twice : ∀ runs ∈ h.writes, (∃ out, runs = [out]) ∨
    ∃ e out, e.isMigration = true ∧ runs = [.error e, out]

/-- Besides being safe so far, a history whose store has migrated has a reason for it. -/
structure Sound (migrated : Bool) (h : History R) : Prop extends Safe migrated h where
  nonneg : 0 ≤ h.client.store.cutoverNs
  justified : h.client.store.hasMigrated = true →
    h.client.store.cutoverNs ≤ h.clock ∨ h.rejected = true ∨ migrated = true
  kept : ∀ c ∈ h.choices, c.result = .ok .xmtpd → h.client.store.hasMigrated = true

theorem toNat_toUInt64 {x : Int64} (h : 0 ≤ x) : (x.toUInt64.toNat : Int) = x.toInt := by
  have hcond := BitVec.toInt_eq_toNat_cond x.toBitVec
  have hlt := x.toBitVec.isLt
  have hpos : 0 ≤ x.toBitVec.toInt := Int64.le_iff_toInt_le.mp h
  rw [← Int64.toNat_toBitVec, Int64.toInt]
  split at hcond
  · exact hcond.symm
  · omega

theorem nonneg_toInt64 {t : UInt64} (h : t.toNat < 2 ^ 63) : 0 ≤ t.toInt64 := by
  have hcond := BitVec.toInt_eq_toNat_cond t.toInt64.toBitVec
  have hsame : t.toInt64.toBitVec.toNat = t.toNat := rfl
  rw [hsame, if_pos (by omega)] at hcond
  have hpos : 0 ≤ t.toInt64.toBitVec.toInt := by
    rw [hcond]
    exact Int.natCast_nonneg _
  exact Int64.le_iff_toInt_le.mpr hpos

variable {migrated : Bool} {h h' : History R} {r : Reading} {c c' : MigrationClient}

theorem Moved.nonneg (hmoved : Moved r c c') (hc : 0 ≤ c.store.cutoverNs) (hsmall : r.Small) :
    0 ≤ c'.store.cutoverNs := by
  rcases hmoved with hsame | ⟨timestampNs, hfetched, hcutover⟩
  · rw [hsame]
    exact hc
  · rw [hcutover]
    exact nonneg_toInt64 (hsmall timestampNs hfetched)

theorem Sound.choose (hsound : Sound migrated h) (hnow : h.clock ≤ r.now)
    (hlater : r.now ≤ r.checkedAt) (hsmall : r.Small) : Sound migrated (h.choose r).2 := by
  have hchosen := chosen_chooseClient r h.client
  rw [History.choose]
  generalize (chooseClient r).outcome h.client = chosen at hchosen
  obtain ⟨result, c'⟩ := chosen
  dsimp only at hchosen ⊢
  have hnonneg := hchosen.moved.nonneg hsound.nonneg hsmall
  have hreason (hmigrated : c'.store.hasMigrated = true) :
      c'.store.cutoverNs ≤ r.now ∨ h.rejected = true ∨ migrated = true := by
    rcases hchosen.reason hmigrated with hstore | hle
    · rw [hstore] at hmigrated ⊢
      rcases hsound.justified hmigrated with hle | hother
      · exact .inl (Int64.le_trans hle hnow)
      · exact .inr hother
    · exact .inl hle
  constructor
  · constructor
    · intro c hc hresult
      rcases List.mem_append.mp hc with hc | hc
      · exact hsound.notEarly c hc hresult
      · rw [List.mem_singleton.mp hc] at hresult ⊢
        dsimp only at hresult ⊢
        rw [hresult] at hchosen
        rcases hreason hchosen.of_xmtpd with hle | hother
        · rw [toNat_toUInt64 hnonneg]
          exact .inl (Int64.le_iff_toInt_le.mp hle)
        · exact .inr hother
    · refine List.pairwise_append.mpr ⟨hsound.notBack, List.pairwise_singleton _ _, ?_⟩
      intro a ha b hb hxmtpd hv3
      rw [List.mem_singleton.mp hb] at hv3
      dsimp only at hv3
      rw [hv3] at hchosen
      exact absurd (hsound.kept a ha hxmtpd) (Bool.eq_false_iff.mp hchosen.of_v3)
    · exact hsound.twice
  · exact hnonneg
  · intro hmigrated
    rcases hreason hmigrated with hle | hother
    · exact .inl (Int64.le_trans hle hlater)
    · exact .inr hother
  · intro c hc hresult
    rcases List.mem_append.mp hc with hc | hc
    · exact hchosen.keeps (hsound.kept c hc hresult)
    · rw [List.mem_singleton.mp hc] at hresult
      dsimp only at hresult
      rw [hresult] at hchosen
      exact hchosen.of_xmtpd

theorem Sound.request (hsound : Sound migrated h) (hnow : h.clock ≤ r.now)
    (hlater : r.now ≤ r.checkedAt) (hsmall : r.Small) (answer : Route → Except ApiClientError R) :
    Sound migrated (h.request r answer).2 := hsound.choose hnow hlater hsmall

theorem Sound.writes (hsound : Sound migrated h) {runs : List (Except ApiClientError R)}
    (hruns : (∃ out, runs = [out]) ∨ ∃ e out, e.isMigration = true ∧ runs = [.error e, out]) :
    Sound migrated { h with writes := h.writes ++ [runs] } where
  notEarly := hsound.notEarly
  notBack := hsound.notBack
  twice := by
    intro runs' hmem
    rcases List.mem_append.mp hmem with hmem | hmem
    · exact hsound.twice runs' hmem
    · rw [List.mem_singleton.mp hmem]
      exact hruns
  nonneg := hsound.nonneg
  justified := hsound.justified
  kept := hsound.kept

theorem Sound.rejected (hsound : Sound migrated h) (r : Reading) :
    Sound migrated { h with
      client := ((setHasMigrated r).outcome h.client).2
      rejected := true } := by
  have hstore : ((setHasMigrated r).outcome h.client).2.store.cutoverNs =
      h.client.store.cutoverNs ∧ (h.client.store.hasMigrated = true →
        ((setHasMigrated r).outcome h.client).2.store.hasMigrated = true) := by
    rw [setHasMigrated, write]
    split
    · exact ⟨rfl, id⟩
    · exact ⟨rfl, fun _ => rfl⟩
  exact {
    notEarly := hsound.notEarly
    notBack := hsound.notBack
    twice := hsound.twice
    nonneg := hstore.1 ▸ hsound.nonneg
    justified := fun _ => .inr (.inl rfl)
    kept := fun c hc hresult => hstore.2 (hsound.kept c hc hresult) }

theorem Sound.writeWithRefresh {w : WriteReading R} (hsound : Sound migrated h)
    (hafter : Event.After h.clock (.write w)) (hsmall : Event.Small (.write w)) :
    Sound migrated (h.writeWithRefresh w).2 := by
  obtain ⟨hnow, hlater, hnow', hlater'⟩ := hafter
  have hfirst := hsound.request hnow hlater hsmall.1 w.answer
  have hclock : (h.request w.first w.answer).2.clock = w.first.checkedAt := rfl
  rw [History.writeWithRefresh]
  generalize h.request w.first w.answer = out at hfirst hclock
  obtain ⟨out, h'⟩ := out
  dsimp only at hfirst hclock ⊢
  cases out with
  | ok answer => exact hfirst.writes (.inl ⟨_, rfl⟩)
  | error e =>
    dsimp only
    split
    · rename_i hmigration
      have hrejected := hfirst.rejected w.first
      split
      · exact hrejected.writes (.inl ⟨_, rfl⟩)
      · exact (hrejected.request (hclock ▸ hnow') hlater' hsmall.2 w.answerAgain).writes
          (.inr ⟨e, _, hmigration, rfl⟩)
    · exact hfirst.writes (.inl ⟨_, rfl⟩)

theorem Sound.handle {e : Event R} (hsound : Sound migrated h) (hafter : e.After h.clock)
    (hsmall : e.Small) : Sound migrated (h.handle e) := by
  cases e with
  | restart =>
    exact {
      notEarly := hsound.notEarly
      notBack := hsound.notBack
      twice := hsound.twice
      nonneg := hsound.nonneg
      justified := hsound.justified
      kept := hsound.kept }
  | choose r => exact hsound.choose hafter.1 hafter.2 hsmall
  | write w => exact hsound.writeWithRefresh hafter hsmall

/-- No call is routed to the new network early, and none back to the old one, as long as what the
server answers fits a signed number. -/
theorem safe_of_small (client : MigrationClient) (clock : Int64) (events : List (Event R))
    (h : History R) (hstored : 0 ≤ client.store.cutoverNs) (hsmall : ∀ e ∈ events, e.Small)
    (hruns : Runs Handles { client, clock } events h) : Safe client.store.hasMigrated h := by
  have hstart : Sound client.store.hasMigrated ({ client, clock } : History R) :=
    { notEarly := fun c hc => absurd hc List.not_mem_nil
      notBack := .nil
      twice := fun runs hruns => absurd hruns List.not_mem_nil
      nonneg := hstored
      justified := fun hmigrated => .inr (.inr hmigrated)
      kept := fun c hc => absurd hc List.not_mem_nil }
  refine (hruns.invariant hstart ?_).toSafe
  rintro m e n he hsound ⟨hafter, rfl⟩
  exact hsound.handle hafter (hsmall e he)

namespace CutoverSample

def before : Reading :=
  { now := 1000000000000, fetched := .ok 4600000000000, checkedAt := 1000000000000 }

def after : Reading :=
  { now := 5000000000000, fetched := .ok 4600000000000, checkedAt := 5000000000000 }

def large : Reading :=
  { now := 1000000000000, fetched := .ok 9223372036854775808, checkedAt := 1000000000000 }

end CutoverSample

open CutoverSample in
theorem safe_over_restart : Safe false
    (((({ client := {}, clock := 0 } : History Unit).handle (.choose before)).handle
      .restart).handle (.choose after)) := by
  refine safe_of_small {} 0 [.choose before, .restart, .choose after] _ (by decide) ?_
    (.cons ⟨⟨by decide, by decide⟩, rfl⟩ (.cons ⟨trivial, rfl⟩
      (.cons ⟨⟨by decide +kernel, by decide⟩, rfl⟩ .nil)))
  intro e he
  rcases List.mem_cons.mp he with rfl | he
  · rintro timestampNs ⟨⟩
    decide
  · rcases List.mem_cons.mp he with rfl | he
    · trivial
    · rw [List.mem_singleton.mp he]
      rintro timestampNs ⟨⟩
      decide

open CutoverSample in
/-- Cast to a signed number the cutover is long past, and the client migrates at once. -/
theorem not_safe_large : ∃ h : History Unit,
    Runs Handles { client := {}, clock := 0 } [.choose large] h ∧ ¬Safe false h := by
  refine ⟨_, .cons ⟨⟨by decide, by decide⟩, rfl⟩ .nil, fun h => ?_⟩
  have hroute : (({ client := {}, clock := 0 } : History Unit).choose large).1 = .ok .xmtpd := by
    decide +kernel
  have hfetched : ((chooseClient large).outcome {}).2.store.cutoverNs.toUInt64.toNat = 2 ^ 63 := by
    decide +kernel
  rcases h.notEarly _ (List.mem_singleton_self _) hroute with hle | hrejected | hmigrated
  · have hle' : (((chooseClient large).outcome {}).2.store.cutoverNs.toUInt64.toNat : Int) ≤
        large.now.toInt := hle
    rw [hfetched] at hle'
    exact absurd hle' (by decide)
  · cases hrejected
  · cases hmigrated

end LibXmtp.D14n.MigrationClient
