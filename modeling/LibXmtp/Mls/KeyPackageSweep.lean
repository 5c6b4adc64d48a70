import LibXmtp.Data.Session
import LibXmtp.Db.KeyPackageHistory

namespace LibXmtp.Mls.KeyPackageSweep

open LibXmtp.Data LibXmtp.Db

/-- What the key store has of a key package: the package, the way from its post quantum key to it,
and the private key of that key. -/
inductive MaterialKey (Ref : Type)
  | keyPackage (hashRef : Ref)
  | reference (publicKey : Bytes)
  | wrapperPrivateKey (hashRef : Bytes)
  deriving DecidableEq

structure KeyCodec (Ref : Type) where
  deserializeHashRef : Bytes → Option Ref
  serializePublicKey : Bytes → Option Bytes

inductive IdentityError
  | uninitializedIdentity
  | openMls
  | openMlsStorageError

inductive KeyPackageMaintenanceError
  | fetch
  | deleteKeyPackage (error : IdentityError)
  | deletion

structure Store (Ref : Type) where
  history : KeyPackageHistory
  material : List (MaterialKey Ref)
  failsAfter : Option Nat := none

variable {Ref ε δ : Type}

def execute (error : ε) (write : Store Ref → Store Ref) : Session (Store Ref) ε PUnit := do
  let s ← get
  match s.failsAfter with
  | some 0 => throw error
  | some (calls + 1) => set { write s with failsAfter := some calls }
  | none => set (write s)

theorem outcome_execute (error : ε) (write : Store Ref → Store Ref) (s : Store Ref) :
    (execute error write).outcome s = (.error error, s) ∨
      ∃ failsAfter, (execute error write).outcome s = (.ok ⟨⟩, { write s with failsAfter }) := by
  rw [execute, Session.outcome_get_bind]
  cases s.failsAfter with
  | none => exact .inr ⟨(write s).failsAfter, rfl⟩
  | some calls =>
    cases calls with
    | zero => exact .inl rfl
    | succ calls => exact .inr ⟨some calls, rfl⟩

def Store.delete [DecidableEq Ref] (key : MaterialKey Ref) (s : Store Ref) : Store Ref :=
  { s with material := s.material.filter fun old => old ≠ key }

section Sweep

variable [DecidableEq Ref] (codec : KeyCodec Ref)

def deleteKeyPackage (hashRef : Bytes) (pqPubKey : Option Bytes) :
    Session (Store Ref) IdentityError PUnit := do
  let openmlsHashRef ← Session.ofExcept
    ((codec.deserializeHashRef hashRef).elim (.error .uninitializedIdentity) .ok)
  execute .openMlsStorageError (Store.delete (.keyPackage openmlsHashRef))
  match pqPubKey with
  | some pqPubKey =>
    let referencesKey ← Session.ofExcept
      ((codec.serializePublicKey pqPubKey).elim (.error .openMls) .ok)
    execute .openMlsStorageError (Store.delete (.reference referencesKey))
    execute .openMlsStorageError (Store.delete (.wrapperPrivateKey hashRef))
  | none => pure ⟨⟩

/-- The rows that are due are told by their deadlines, those that are removed by their ids. -/
def sweepExpired (now : Int64) : Session (Store Ref) KeyPackageMaintenanceError PUnit := do
  execute .fetch id
  let s ← get
  let expiredKps := s.history.getExpiredKeyPackages now
  if expiredKps.isEmpty then return ⟨⟩
  expiredKps.forM fun kp =>
    (deleteKeyPackage codec kp.keyPackageHashRef kp.postQuantumPublicKey).mapError
      .deleteKeyPackage
  match (expiredKps.map (·.id)).max? with
  | some maxId =>
    execute .deletion fun s => { s with history := s.history.deleteKeyPackageHistoryUpToId maxId }
  | none => pure ⟨⟩

def KeyCodec.material (hashRef : Bytes) (pqPubKey : Option Bytes) : List (MaterialKey Ref) :=
  (codec.deserializeHashRef hashRef).toList.map .keyPackage ++
    ((pqPubKey.bind codec.serializePublicKey).toList.map .reference ++
      pqPubKey.toList.map fun _ => .wrapperPrivateKey hashRef)

end Sweep

section Wipe

/-- Of the keys in the store some of the listed ones are deleted, and all of them if nothing
fails. -/
structure Wipes (s : Store Ref) (keys : List (MaterialKey Ref)) {α : Type} (r : Except ε α)
    (s' : Store Ref) : Prop where
  history : s'.history = s.history
  subset : s'.material ⊆ s.material
  kept : ∀ key ∈ s.material, key ∉ keys → key ∈ s'.material
  gone : ∀ a, r = .ok a → ∀ key ∈ keys, key ∉ s'.material

variable {s s' : Store Ref} {keys keys' : List (MaterialKey Ref)} {α β : Type}

theorem Wipes.refl {r : Except ε α} (h : ∀ a, r = .ok a → keys = []) : Wipes s keys r s where
  history := rfl
  subset := List.Subset.refl _
  kept _ hkey _ := hkey
  gone a ha := by
    rw [h a ha]
    exact fun _ hkey => absurd hkey List.not_mem_nil

theorem Wipes.bind {x : Session (Store Ref) ε α} {f : α → Session (Store Ref) ε β}
    (hx : Session.At s x (Wipes s keys)) (hf : ∀ a s', Session.At s' (f a) (Wipes s' keys')) :
    Session.At s (x >>= f) (Wipes s (keys ++ keys')) where
  run t ht := by
    subst ht
    have hwiped := hx.run t rfl
    rw [Session.outcome_bind]
    generalize x.outcome t = out at hwiped ⊢
    obtain ⟨r, s'⟩ := out
    cases r with
    | error e =>
      exact
        { history := hwiped.history
          subset := hwiped.subset
          kept := fun key hkey hnot =>
            hwiped.kept key hkey fun hmem => hnot (List.mem_append_left _ hmem)
          gone := fun _ h => by cases h }
    | ok a =>
      have hwiped' := (hf a s').run s' rfl
      exact
        { history := hwiped'.history.trans hwiped.history
          subset := List.Subset.trans hwiped'.subset hwiped.subset
          kept := fun key hkey hnot =>
            hwiped'.kept key (hwiped.kept key hkey fun hmem => hnot (List.mem_append_left _ hmem))
              fun hmem => hnot (List.mem_append_right _ hmem)
          gone := fun b hb key hkey hmem => by
            rcases List.mem_append.mp hkey with hkey | hkey
            · exact hwiped.gone a rfl key hkey (hwiped'.subset hmem)
            · exact hwiped'.gone b hb key hkey hmem }

theorem Wipes.pure (a : α) : Session.At s (pure a : Session (Store Ref) ε α) (Wipes s []) :=
  .pure (.refl fun _ _ => rfl)

theorem Wipes.ofExcept_bind {r : Except ε α} {f : α → Session (Store Ref) ε β}
    (hf : ∀ a, r = .ok a → Session.At s (f a) (Wipes s keys)) :
    Session.At s (Session.ofExcept r >>= f) (Wipes s keys) := by
  apply Session.At.ofExcept_bind
  · intro e he
    apply Wipes.refl
    intro a ha
    cases ha
  · exact hf

theorem Wipes.mapError {f : ε → δ} {x : Session (Store Ref) ε α}
    (h : Session.At s x (Wipes s keys)) : Session.At s (x.mapError f) (Wipes s keys) where
  run t ht := by
    subst ht
    have hwiped := h.run t rfl
    show Wipes t keys ((x.outcome t).1.mapError f) (x.outcome t).2
    generalize x.outcome t = out at hwiped ⊢
    obtain ⟨r, s'⟩ := out
    cases r with
    | error e => exact ⟨hwiped.history, hwiped.subset, hwiped.kept, fun _ h => by cases h⟩
    | ok a => exact ⟨hwiped.history, hwiped.subset, hwiped.kept, fun _ _ => hwiped.gone a rfl⟩

theorem Wipes.forM {ι : Type} {f : ι → Session (Store Ref) ε PUnit}
    {keysOf : ι → List (MaterialKey Ref)}
    (h : ∀ i s, Session.At s (f i) (Wipes s (keysOf i))) (is : List ι) :
    ∀ s, Session.At s (is.forM f) (Wipes s (is.flatMap keysOf)) := by
  induction is with
  | nil => exact fun s => Wipes.pure _
  | cons i is ih =>
    intro s
    rw [List.flatMap_cons]
    exact Wipes.bind (h i s) fun _ => ih

end Wipe

section Spec

variable {codec : KeyCodec Ref} {s s' : Store Ref} {now : Int64}

theorem Wipes.delete [DecidableEq Ref] (error : ε) (key : MaterialKey Ref) (s : Store Ref) :
    Session.At s (execute error (Store.delete key)) (Wipes s [key]) where
  run t ht := by
    subst ht
    rcases outcome_execute error (Store.delete key) t with hout | ⟨failsAfter, hout⟩
    · rw [hout]
      apply Wipes.refl
      intro a ha
      cases ha
    · rw [hout]
      exact
        { history := rfl
          subset := List.filter_subset_self _
          kept := fun old hold hne => List.mem_filter.mpr
            ⟨hold, decide_eq_true fun heq => hne (List.mem_singleton.mpr heq)⟩
          gone := fun _ _ old hold hmem => by
            have hne := of_decide_eq_true (List.mem_filter.mp hmem).2
            exact hne (List.mem_singleton.mp hold) }

theorem wipes_deleteKeyPackage [DecidableEq Ref] (codec : KeyCodec Ref) (hashRef : Bytes) (pqPubKey : Option Bytes)
    (s : Store Ref) : Session.At s (deleteKeyPackage codec hashRef pqPubKey)
      (Wipes s (codec.material hashRef pqPubKey)) := by
  unfold deleteKeyPackage KeyCodec.material
  cases codec.deserializeHashRef hashRef with
  | none => exact Wipes.ofExcept_bind fun _ h => by cases h
  | some ref =>
    apply Wipes.ofExcept_bind
    rintro _ ⟨⟩
    apply Wipes.bind (Wipes.delete _ _ _)
    intro _ s'
    cases pqPubKey with
    | none => exact Wipes.pure _
    | some pqPubKey =>
      dsimp only
      rw [Option.bind_some]
      cases codec.serializePublicKey pqPubKey with
      | none => exact Wipes.ofExcept_bind fun _ h => by cases h
      | some key =>
        apply Wipes.ofExcept_bind
        rintro _ ⟨⟩
        exact Wipes.bind (Wipes.delete _ _ _) fun _ s'' => Wipes.delete _ _ s''

/-- The key packages that are due lose their material, and those up to the last of them their
rows. -/
def Removed (codec : KeyCodec Ref) (s : Store Ref) (now : Int64) (s' : Store Ref) : Prop :=
  ∃ maxId, ((s.history.getExpiredKeyPackages now).map (·.id)).max? = some maxId ∧
    s'.history = s.history.deleteKeyPackageHistoryUpToId maxId ∧
    ∀ kp ∈ s.history.getExpiredKeyPackages now,
      ∀ key ∈ codec.material kp.keyPackageHashRef kp.postQuantumPublicKey, key ∉ s'.material

structure Swept (codec : KeyCodec Ref) (s : Store Ref) (now : Int64)
    (r : Except KeyPackageMaintenanceError PUnit) (s' : Store Ref) : Prop where
  subset : s'.material ⊆ s.material
  kept : ∀ key ∈ s.material, (∀ kp ∈ s.history.getExpiredKeyPackages now,
    key ∉ codec.material kp.keyPackageHashRef kp.postQuantumPublicKey) → key ∈ s'.material
  rows : s'.history = s.history ∨ Removed codec s now s'
  ok : r = .ok ⟨⟩ → s.history.getExpiredKeyPackages now = [] ∨ Removed codec s now s'

theorem Swept.refl {r : Except KeyPackageMaintenanceError PUnit} (failsAfter : Option Nat)
    (h : r = .ok ⟨⟩ → s.history.getExpiredKeyPackages now = []) :
    Swept codec s now r { s with failsAfter } where
  subset := List.Subset.refl _
  kept _ hkey _ := hkey
  rows := .inl rfl
  ok hr := .inl (h hr)

theorem swept_sweepExpired [DecidableEq Ref] (codec : KeyCodec Ref) (now : Int64) (s : Store Ref) :
    Session.At s (sweepExpired codec now) (Swept codec s now) where
  run t ht := by
    subst ht
    unfold sweepExpired
    rw [Session.outcome_bind]
    rcases outcome_execute KeyPackageMaintenanceError.fetch id t with hfetch | ⟨calls, hfetch⟩
    · rw [hfetch]
      exact Swept.refl t.failsAfter fun h => by cases h
    · rw [hfetch]
      dsimp only
      rw [Session.outcome_get_bind]
      dsimp only [id]
      by_cases hexpired : (t.history.getExpiredKeyPackages now).isEmpty = true
      · rw [if_pos hexpired]
        exact Swept.refl calls fun _ => List.isEmpty_iff.mp hexpired
      · rw [if_neg hexpired, Session.outcome_bind]
        have hwiped := (Wipes.forM (fun kp s' =>
          Wipes.mapError (f := KeyPackageMaintenanceError.deleteKeyPackage)
            (wipes_deleteKeyPackage codec kp.keyPackageHashRef kp.postQuantumPublicKey s'))
          (t.history.getExpiredKeyPackages now) { t with failsAfter := calls }).run _ rfl
        generalize Session.outcome (List.forM _ _) _ = out at hwiped ⊢
        obtain ⟨r, s'⟩ := out
        have hkept : ∀ key ∈ t.material, (∀ kp ∈ t.history.getExpiredKeyPackages now,
            key ∉ codec.material kp.keyPackageHashRef kp.postQuantumPublicKey) →
            key ∈ s'.material := by
          intro key hkey hnot
          apply hwiped.kept key hkey
          rw [List.mem_flatMap]
          rintro ⟨kp, hkp, hmem⟩
          exact hnot kp hkp hmem
        cases r with
        | error e => exact ⟨hwiped.subset, hkept, .inl hwiped.history, fun h => by cases h⟩
        | ok _ =>
          dsimp only
          cases hmax : ((t.history.getExpiredKeyPackages now).map (·.id)).max? with
          | none =>
            rw [List.max?_eq_none_iff, List.map_eq_nil_iff] at hmax
            exact absurd (List.isEmpty_iff.mpr hmax) hexpired
          | some maxId =>
            dsimp only
            rcases outcome_execute KeyPackageMaintenanceError.deletion (fun s : Store Ref =>
              { s with history := s.history.deleteKeyPackageHistoryUpToId maxId }) s' with
              hout | ⟨calls', hout⟩
            · rw [hout]
              exact ⟨hwiped.subset, hkept, .inl hwiped.history, fun h => by cases h⟩
            · rw [hout]
              have hremoved : Removed codec t now { s' with
                  history := s'.history.deleteKeyPackageHistoryUpToId maxId
                  failsAfter := calls' } := by
                refine ⟨maxId, hmax, congrArg (·.deleteKeyPackageHistoryUpToId maxId) hwiped.history,
                  fun kp hkp key hkey => ?_⟩
                exact hwiped.gone ⟨⟩ rfl key (List.mem_flatMap.mpr ⟨kp, hkp, hkey⟩)
              exact ⟨hwiped.subset, hkept, .inr hremoved, fun _ => .inr hremoved⟩

end Spec

end LibXmtp.Mls.KeyPackageSweep
