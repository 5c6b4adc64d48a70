import LibXmtp.Groups.WelcomeSync

namespace LibXmtp.Groups

open LibXmtp.Data LibXmtp.Db LibXmtp.Types Relation

variable {installationId : Bytes} {start : Nat → Nat} {w w' : WelcomeWorld}

def Passed (start : Nat → Nat) (w : WelcomeWorld) (v : WelcomeMessage) : Prop :=
  v.cursor.sequenceId ≤ start v.cursor.originatorId ∨ w.Settled v.cursor

/-- Every welcome before one that the pass has still to process has passed, or is in the pass. -/
structure PassCovered (start : Nat → Nat) (w : WelcomeWorld) (p : WelcomePass) : Prop where
  sound : p.flight.Sound
  increments : p.flight.cursorIncrement = true
  listed : ∀ v ∈ p.queue, v ∈ w.server
  ordered : p.queue.Pairwise Earlier
  earlier : ∀ x ∈ p.queue, ∀ v ∈ w.server, v.cursor.originatorId = x.cursor.originatorId →
    v.cursor.sequenceId < x.cursor.sequenceId → Passed start w v ∨ v ∈ p.queue
  result : ∀ r, p.flight.phase = .done r → Final r → w.Settled p.flight.welcome.cursor

structure Covered (installationId : Bytes) (start : Nat → Nat) (w : WelcomeWorld) : Prop where
  ordered : w.server.Pairwise Earlier
  below : ∀ v ∈ w.server, v.cursor.sequenceId ≤ w.cursor installationId v.cursor.originatorId →
    Passed start w v
  reached : ∀ o, w.cursor installationId o ≤ start o ∨
    ∃ v ∈ w.server, v.cursor.originatorId = o ∧ v.cursor.sequenceId = w.cursor installationId o
  streams : ∀ f ∈ w.streams, f.Sound ∧ f.cursorIncrement = false
  passes : ∀ p ∈ w.passes, PassCovered start w p

theorem Passed.mono {v : WelcomeMessage} (hsettled : ∀ cursor, w.Settled cursor → w'.Settled cursor)
    (h : Passed start w v) : Passed start w' v :=
  h.imp id (hsettled v.cursor)

theorem PassCovered.mono {p : WelcomePass} (hserver : w'.server = w.server)
    (hsettled : ∀ cursor, w.Settled cursor → w'.Settled cursor) (h : PassCovered start w p) :
    PassCovered start w' p where
  sound := h.sound
  increments := h.increments
  listed v hv := hserver ▸ h.listed v hv
  ordered := h.ordered
  earlier x hx v hv horiginator hlt :=
    (h.earlier x hx v (hserver ▸ hv) horiginator hlt).imp_left (Passed.mono hsettled)
  result r hr hfinal := hsettled _ (h.result r hr hfinal)

theorem settled_of_eq {v x : WelcomeMessage} (h : w.Settled x.cursor)
    (horiginator : v.cursor.originatorId = x.cursor.originatorId)
    (hsequence : v.cursor.sequenceId = x.cursor.sequenceId) : w.Settled v.cursor := by
  have heq : v.cursor = x.cursor := by
    rcases hv : v.cursor with ⟨a, b⟩
    rcases hx : x.cursor with ⟨c, d⟩
    simp_all
  rwa [heq]

theorem PassCovered.below_head {p : WelcomePass} (hp : PassCovered start w p)
    (hsettled : ∀ cursor, w.Settled cursor → w'.Settled cursor)
    (hhead : w'.Settled p.flight.welcome.cursor) {v : WelcomeMessage} (hv : v ∈ w.server)
    (horiginator : v.cursor.originatorId = p.flight.welcome.cursor.originatorId)
    (hle : v.cursor.sequenceId ≤ p.flight.welcome.cursor.sequenceId) : Passed start w' v := by
  rcases Nat.lt_or_eq_of_le hle with hlt | heq
  · rcases hp.earlier _ List.mem_cons_self v hv horiginator hlt with hpassed | hmem
    · exact hpassed.mono hsettled
    · rcases List.mem_cons.mp hmem with rfl | hrest
      · exact absurd hlt (Nat.lt_irrefl _)
      · have hlater := (List.pairwise_cons.mp hp.ordered).1 v hrest horiginator.symm
        exact absurd hlt (Nat.lt_asymm hlater)
  · exact .inr (settled_of_eq hhead horiginator heq)

theorem PassCovered.of_start {welcomes : List WelcomeMessage} (hlisted : ∀ v ∈ welcomes, v ∈ w.server)
    (hordered : welcomes.Pairwise Earlier)
    (hearlier : ∀ x ∈ welcomes, ∀ v ∈ w.server, v.cursor.originatorId = x.cursor.originatorId →
      v.cursor.sequenceId < x.cursor.sequenceId → Passed start w v ∨ v ∈ welcomes)
    {p : WelcomePass} (hp : p ∈ WelcomePass.start welcomes) : PassCovered start w p := by
  cases welcomes with
  | nil => cases hp
  | cons x xs =>
    rw [WelcomePass.start, List.mem_singleton] at hp
    subst hp
    exact ⟨by rintro _ ⟨⟩, rfl, hlisted, hordered, hearlier, by rintro _ ⟨⟩⟩

theorem PassCovered.next {p : WelcomePass} (hp : PassCovered start w p)
    {r : Except WelcomeError (Option StoredGroup)} (hdone : p.flight.phase = .done r)
    (hfinal : Final r) {q : WelcomePass} (hq : q ∈ WelcomePass.start p.rest) :
    PassCovered start w q := by
  have hrest (v : WelcomeMessage) (hv : v ∈ p.rest) : v ∈ p.queue := List.mem_cons_of_mem _ hv
  refine PassCovered.of_start (fun v hv => hp.listed v (hrest v hv))
    (List.pairwise_cons.mp hp.ordered).2 (fun x hx v hv horiginator hlt => ?_) hq
  rcases hp.earlier x (hrest x hx) v hv horiginator hlt with hpassed | hmem
  · exact .inl hpassed
  · rcases List.mem_cons.mp hmem with rfl | hmem
    · exact .inl (.inr (hp.result r hdone hfinal))
    · exact .inr hmem

theorem PassCovered.goes {p : WelcomePass} (hp : PassCovered start w p) {passes : List WelcomePass}
    (hgoes : p.Goes passes) {q : WelcomePass} (hq : q ∈ passes) : PassCovered start w q := by
  cases hgoes with
  | retried hdone herror hretryable hattempts =>
    rw [List.mem_singleton] at hq
    subst hq
    exact ⟨by rintro _ ⟨⟩, hp.increments, hp.listed, hp.ordered, hp.earlier, by rintro _ ⟨⟩⟩
  | stopped => cases hq
  | @skipped r e hdone herror hforever =>
    refine hp.next hdone (fun e' he' => ?_) hq
    subst he'
    cases e' with
    | duplicate item => rfl
    | _ =>
      cases herror
      exact hforever
  | @processed r group hdone hok =>
    refine hp.next hdone (fun e' he' => ?_) hq
    subst he'
    cases e' with
    | duplicate item => cases item with | welcomeId cursor => cases hok
    | _ => cases hok

namespace Covered

theorem initial (h : w.Fresh) : Covered installationId (w.cursor installationId) w where
  ordered := h.server
  below _ _ hle := .inl hle
  reached _ := .inl (Nat.le_refl _)
  streams f hf := by
    rw [h.streams] at hf
    cases hf
  passes p hp := by
    rw [h.passes] at hp
    cases hp

variable (hcovered : Covered installationId start w)

include hcovered

theorem delivered (welcome : WelcomeMessage)
    (hnew : ∀ old ∈ w.server, old.cursor.originatorId = welcome.cursor.originatorId →
      old.cursor.sequenceId < welcome.cursor.sequenceId) :
    Covered installationId start { w with server := w.server ++ [welcome] } where
  ordered := by
    refine List.pairwise_append.mpr ⟨hcovered.ordered, List.pairwise_singleton _ _, ?_⟩
    intro old hold x hx
    rw [List.mem_singleton.mp hx]
    exact hnew old hold
  below v hv hle := by
    rcases List.mem_append.mp hv with hold | hwelcome
    · exact hcovered.below v hold hle
    · rw [List.mem_singleton.mp hwelcome] at hle ⊢
      rcases hcovered.reached welcome.cursor.originatorId with hstart | ⟨old, hold, heq, hcursor⟩
      · exact .inl (Nat.le_trans hle hstart)
      · have hlt := hnew old hold heq
        rw [hcursor] at hlt
        exact absurd hle (Nat.not_le_of_gt hlt)
  reached o := (hcovered.reached o).imp_right fun ⟨v, hv, h⟩ => ⟨v, List.mem_append_left _ hv, h⟩
  streams := hcovered.streams
  passes p hp := by
    obtain ⟨hsound, hincrements, hlisted, hordered, hearlier, hresult⟩ := hcovered.passes p hp
    refine ⟨hsound, hincrements, fun v hv => List.mem_append_left _ (hlisted v hv), hordered,
      fun x hx v hv horiginator hlt => ?_, hresult⟩
    rcases List.mem_append.mp hv with hold | hwelcome
    · exact hearlier x hx v hold horiginator hlt
    · rw [List.mem_singleton.mp hwelcome] at horiginator hlt
      exact absurd (hnew x (hlisted x hx) horiginator.symm) (Nat.lt_asymm hlt)

theorem fly {f : WelcomeFlight} (hsound : f.Sound) {ctx : WelcomeContext}
    (hctx : ctx.installationId = installationId)
    (hflight : f.cursorIncrement = true → ∃ p, PassCovered start w p ∧ p.flight = f)
    {streams : List WelcomeFlight} {passes : List WelcomePass}
    (hstreams : ∀ f ∈ streams, f.Sound ∧ f.cursorIncrement = false)
    (hpasses : ∀ p ∈ passes, PassCovered start (w.fly ctx f) p) :
    Covered installationId start { w.fly ctx f with streams, passes } where
  ordered := hcovered.ordered
  below v hv hle := by
    have hmono : Passed start w v → Passed start (w.fly ctx f) v := .mono fun _ => settled_fly
    change v.cursor.sequenceId ≤ (w.fly ctx f).cursor installationId v.cursor.originatorId at hle
    rcases cursor_fly (w := w) hsound hctx with hsame | ⟨hincrement, hsettled, hmoved⟩
    · rw [hsame] at hle
      exact hmono (hcovered.below v hv hle)
    · rw [hmoved] at hle
      split at hle
      · rename_i hmoves
        have horiginator := hmoves.1
        by_cases hbelow : v.cursor.sequenceId ≤ w.cursor installationId v.cursor.originatorId
        · exact hmono (hcovered.below v hv hbelow)
        · obtain ⟨p, hp, rfl⟩ := hflight hincrement
          exact hp.below_head (fun _ => settled_fly) hsettled hv horiginator.symm (by omega)
      · exact hmono (hcovered.below v hv hle)
  reached o := by
    change (w.fly ctx f).cursor installationId o ≤ start o ∨ ∃ v ∈ w.server,
      v.cursor.originatorId = o ∧ v.cursor.sequenceId = (w.fly ctx f).cursor installationId o
    rcases cursor_fly (w := w) hsound hctx with hsame | ⟨hincrement, -, hmoved⟩
    · rw [hsame o]
      exact hcovered.reached o
    · rw [hmoved o]
      split
      · rename_i hmoves
        have horiginator := hmoves.1
        rcases Nat.le_total f.welcome.cursor.sequenceId (w.cursor installationId o) with hle | hle
        · rw [Nat.max_eq_left hle]
          exact hcovered.reached o
        · obtain ⟨p, hp, rfl⟩ := hflight hincrement
          rw [Nat.max_eq_right hle]
          exact .inr ⟨_, hp.listed _ List.mem_cons_self, horiginator, rfl⟩
      · exact hcovered.reached o
  streams := hstreams
  passes p hp := by
    obtain ⟨hsound, hincrements, hlisted, hordered, hearlier, hresult⟩ := hpasses p hp
    exact ⟨hsound, hincrements, hlisted, hordered, hearlier, hresult⟩

theorem query (limit : Nat) {p : WelcomePass}
    (hp : p ∈ WelcomePass.start ((w.queryWelcomeMessages installationId).take limit)) :
    PassCovered start w p := by
  have hsublist : ((w.queryWelcomeMessages installationId).take limit).Sublist w.server :=
    (List.take_sublist _ _).trans List.filter_sublist
  refine PassCovered.of_start (fun v hv => hsublist.subset hv) (hcovered.ordered.sublist hsublist)
    (fun x hx v hv horiginator hlt => ?_) hp
  by_cases hle : v.cursor.sequenceId ≤ w.cursor installationId v.cursor.originatorId
  · exact .inl (hcovered.below v hv hle)
  · have hmem : v ∈ w.queryWelcomeMessages installationId :=
      List.mem_filter.mpr ⟨hv, decide_eq_true (Nat.lt_of_not_le hle)⟩
    -- A page that holds a welcome holds those before it.
    rw [← List.take_append_drop limit (w.queryWelcomeMessages installationId)] at hmem
    rcases List.mem_append.mp hmem with htake | hdrop
    · exact .inr htake
    · have hpage : (w.queryWelcomeMessages installationId).Pairwise Earlier :=
        hcovered.ordered.sublist List.filter_sublist
      rw [← List.take_append_drop limit (w.queryWelcomeMessages installationId)] at hpage
      have hlater := (List.pairwise_append.mp hpage).2.2 x hx v hdrop horiginator.symm
      exact absurd hlt (Nat.lt_asymm hlater)

theorem step (hstep : WelcomeStep installationId w w') : Covered installationId start w' := by
  cases hstep with
  | delivered welcome hnew => exact hcovered.delivered welcome hnew
  | streamed welcome =>
    obtain ⟨hordered, hbelow, hreached, hstreams, hpasses⟩ := hcovered
    refine ⟨hordered, hbelow, hreached, fun f hf => ?_, fun p hp => ?_⟩
    · rcases List.mem_append.mp hf with hf | hf
      · exact hstreams f hf
      · rw [List.mem_singleton] at hf
        subst hf
        exact ⟨by rintro _ ⟨⟩, rfl⟩
    · exact (hpasses p hp).mono (by rfl) (by exact fun _ h => h)
  | @streamFlew i f hflight ctx hctx =>
    obtain ⟨hsound, hincrement⟩ := hcovered.streams f (List.mem_of_getElem? hflight)
    refine hcovered.fly hsound hctx (fun h => ?_) (fun f' hf' => ?_) fun p hp => ?_
    · rw [hincrement] at h
      cases h
    · rcases List.mem_or_eq_of_mem_set hf' with hf' | rfl
      · exact hcovered.streams f' hf'
      · exact ⟨hsound.step w.store, hincrement⟩
    · exact (hcovered.passes p hp).mono (by rfl) fun _ => settled_fly
  | passStarted limit =>
    refine ⟨hcovered.ordered, hcovered.below, hcovered.reached, hcovered.streams, fun p hp => ?_⟩
    have hpass : PassCovered start w p := by
      rcases List.mem_append.mp hp with hp | hp
      · exact hcovered.passes p hp
      · exact hcovered.query limit hp
    exact hpass.mono (by rfl) (by exact fun _ h => h)
  | @passFlew i p hpass ctx hctx =>
    have hp := hcovered.passes p (List.mem_of_getElem? hpass)
    refine hcovered.fly hp.sound hctx (fun _ => ⟨p, hp, rfl⟩) hcovered.streams fun q hq => ?_
    have hmono {q : WelcomePass} (hq : PassCovered start w q) :
        PassCovered start (w.fly ctx p.flight) q := hq.mono (by rfl) fun _ => settled_fly
    rcases List.mem_or_eq_of_mem_set hq with hq | rfl
    · exact hmono (hcovered.passes q hq)
    · obtain ⟨-, hincrements, hlisted, hordered, hearlier, hresult⟩ := hmono hp
      refine ⟨hp.sound.step w.store, hincrements, hlisted, hordered, hearlier,
        fun r hr hfinal => ?_⟩
      rcases settled_of_final hp.sound hincrements hr hfinal with hbefore | hsettled
      · exact hresult r hbefore hfinal
      · exact hsettled
  | @passWent i p hpass passes hgoes =>
    have hp := hcovered.passes p (List.mem_of_getElem? hpass)
    refine ⟨hcovered.ordered, hcovered.below, hcovered.reached, hcovered.streams, fun q hq => ?_⟩
    have hq' : PassCovered start w q := by
      rcases List.mem_append.mp hq with hq | hq
      · exact hcovered.passes q (List.mem_of_mem_eraseIdx hq)
      · exact hp.goes hgoes hq
    exact hq'.mono (by rfl) (by exact fun _ h => h)
  | other store hcursor =>
    obtain ⟨hordered, hbelow, hreached, hstreams, hpasses⟩ := hcovered
    have hsame (o : Nat) : WelcomeWorld.cursor { w with store } installationId o =
        w.cursor installationId o := hcursor o
    refine ⟨hordered, fun v hv hle => ?_, fun o => ?_, hstreams, fun p hp => ?_⟩
    · rw [hsame] at hle
      exact hbelow v hv hle
    · rw [hsame]
      exact hreached o
    · exact (hpasses p hp).mono (by rfl) (by exact fun _ h => h)

end Covered

theorem Covered.run {initial : WelcomeWorld} (hfresh : initial.Fresh)
    (hrun : ReflTransGen (WelcomeStep installationId) initial w) :
    Covered installationId (initial.cursor installationId) w := by
  induction hrun with
  | refl => exact .initial hfresh
  | tail _ hstep ih => exact ih.step hstep

/-- Whenever the cursor is at or above a welcome that it started below, a step of the run has stored
the welcome, or found it stored, or has failed on it for good in a flight that moves the cursor. -/
theorem no_welcome_skipped {initial : WelcomeWorld} (hfresh : initial.Fresh)
    (hrun : ReflTransGen (WelcomeStep installationId) initial w) {v : WelcomeMessage}
    (hv : v ∈ w.server)
    (hstart : initial.cursor installationId v.cursor.originatorId < v.cursor.sequenceId)
    (hcursor : v.cursor.sequenceId ≤ w.cursor installationId v.cursor.originatorId) :
    ∃ t ∈ w.history, t.cursor = v.cursor ∧ (t.Committed ∨ t.AlreadyApplied ∨ t.FailedForever) :=
  ((Covered.run hfresh hrun).below v hv hcursor).resolve_left (Nat.not_le_of_gt hstart)

namespace WelcomeSample

def initial : WelcomeWorld := { store, server := [welcome 10 3, welcome 20 7] }

def busy : WelcomeContext :=
  { ctx with calls := fun name => if name = .transaction then .error (.other true) else .ok () }

def started (limit : Nat) (w : WelcomeWorld) : WelcomeWorld :=
  { w with passes := w.passes ++
    WelcomePass.start ((w.queryWelcomeMessages [1]).take limit) }

def streamed (w : WelcomeWorld) : WelcomeWorld :=
  { w with streams := w.streams ++ [{ welcome := welcome 10 3, cursorIncrement := false }] }

def streamFlown (w : WelcomeWorld) : WelcomeWorld :=
  match w.streams[0]? with
  | none => w
  | some f => { w.fly ctx f with streams := w.streams.set 0 (f.step ctx w.store) }

def passFlown (calls : WelcomeCall → Except WelcomeError Unit) (w : WelcomeWorld) : WelcomeWorld :=
  match w.passes[0]? with
  | none => w
  | some p => { w.fly { ctx with calls } p.flight with
      passes := w.passes.set 0 { p with flight := p.flight.step { ctx with calls } w.store } }

def passWent (w : WelcomeWorld) : WelcomeWorld :=
  match w.passes[0]? with
  | none => w
  | some p =>
    match p.flight.phase with
    | .done r =>
      let passes := match processNewWelcome p.flight.welcome.cursor r with
        | .error e => if e.isRetryable then [] else WelcomePass.start p.rest
        | .ok _ => WelcomePass.start p.rest
      { w with passes := w.passes.eraseIdx 0 ++ passes }
    | _ => w

theorem run_streamFlown (w : WelcomeWorld) :
    ReflTransGen (WelcomeStep [1]) w (streamFlown w) := by
  unfold streamFlown
  split
  · exact .refl
  · rename_i f hf
    exact .single (.streamFlew hf ctx rfl)

theorem run_passFlown (calls : WelcomeCall → Except WelcomeError Unit) (w : WelcomeWorld) :
    ReflTransGen (WelcomeStep [1]) w (passFlown calls w) := by
  unfold passFlown
  split
  · exact .refl
  · rename_i p hp
    exact .single (.passFlew hp { ctx with calls } rfl)

theorem run_passWent (w : WelcomeWorld) : ReflTransGen (WelcomeStep [1]) w (passWent w) := by
  unfold passWent
  split
  · exact .refl
  · rename_i p hp
    split
    · rename_i r hdone
      refine .single (.passWent hp ?_)
      split
      · rename_i e herror
        split
        · rename_i hretryable
          exact .stopped hdone herror hretryable
        · rename_i hforever
          exact .skipped hdone herror (Bool.eq_false_iff.mpr hforever)
      · rename_i group hok
        exact .processed hdone hok
    · exact .refl

theorem run_iterate {step : WelcomeWorld → WelcomeWorld}
    (h : ∀ w, ReflTransGen (WelcomeStep [1]) w (step w)) (n : Nat) (w : WelcomeWorld) :
    ReflTransGen (WelcomeStep [1]) w (step^[n] w) := by
  induction n generalizing w with
  | zero => exact .refl
  | succ n ih => exact (h w).trans (ih (step w))

def firstPass : WelcomeWorld :=
  passWent ((passFlown ctx.calls)^[9] (streamFlown^[4] (streamed (started 2 initial))))

def stoppedPass : WelcomeWorld := passWent ((passFlown busy.calls)^[9] firstPass)

def secondPass : WelcomeWorld := (passFlown ctx.calls)^[9] (started 1 stoppedPass)

theorem run_secondPass : ReflTransGen (WelcomeStep [1]) initial secondPass := by
  have hstarted : ReflTransGen (WelcomeStep [1]) initial (streamed (started 2 initial)) :=
    .tail (.single (.passStarted 2)) (.streamed (welcome 10 3))
  have hfirst : ReflTransGen (WelcomeStep [1]) initial firstPass :=
    ((hstarted.trans (run_iterate run_streamFlown 4 _)).trans
      (run_iterate (run_passFlown _) 9 _)).trans (run_passWent _)
  have hstopped : ReflTransGen (WelcomeStep [1]) initial stoppedPass :=
    (hfirst.trans (run_iterate (run_passFlown _) 9 _)).trans (run_passWent _)
  have hnext : ReflTransGen (WelcomeStep [1]) initial (started 1 stoppedPass) :=
    hstopped.tail (.passStarted 1)
  exact hnext.trans (run_iterate (run_passFlown _) 9 _)

end WelcomeSample

open WelcomeSample in
/-- The first welcome is refused after a stream has stored it, and the second is stored by the second
pass that comes to it. -/
theorem no_welcome_skipped_second :
    stoppedPass.cursor [1] 11 = 10 ∧ secondPass.cursor [1] 11 = 20 ∧
      secondPass.store.mls [9] = some ⟨7, true⟩ ∧
      (∃ t ∈ secondPass.history, t.cursor = ⟨10, 11⟩ ∧
        (t.Committed ∨ t.AlreadyApplied ∨ t.FailedForever)) ∧
      ∃ t ∈ secondPass.history, t.cursor = ⟨20, 11⟩ ∧
        (t.Committed ∨ t.AlreadyApplied ∨ t.FailedForever) := by
  have hfresh : initial.Fresh :=
    ⟨rfl, rfl, rfl, List.pairwise_pair.mpr fun _ => by decide⟩
  have hcursor : secondPass.cursor [1] 11 = 20 := by decide +kernel
  have hserver : secondPass.server = [welcome 10 3, welcome 20 7] := by decide +kernel
  refine ⟨by decide +kernel, hcursor, by decide +kernel, ?_, ?_⟩
  · exact no_welcome_skipped hfresh run_secondPass (v := welcome 10 3) (by simp [hserver])
      (by decide +kernel) (by rw [show (welcome 10 3).cursor = ⟨10, 11⟩ from rfl, hcursor]; decide)
  · exact no_welcome_skipped hfresh run_secondPass (v := welcome 20 7) (by simp [hserver])
      (by decide +kernel) (by rw [show (welcome 20 7).cursor = ⟨20, 11⟩ from rfl, hcursor])

end LibXmtp.Groups
