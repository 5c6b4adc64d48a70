import LibXmtp.AppData.BootstrapDictionary
import LibXmtp.Data.TlsMapGrowth
import LibXmtp.Groups.GroupMembership

/-! The update of the members in the dictionary, made from two memberships, and what it leaves when
it is applied to the first of them. -/

namespace LibXmtp.Data.TlsMapDelta

variable {K V : Type}

def new : TlsMapDelta K V := ⟨[]⟩

def insert (delta : TlsMapDelta K V) (key : K) (value : V) : TlsMapDelta K V :=
  ⟨delta.mutations ++ [.insert key value]⟩

def update (delta : TlsMapDelta K V) (key : K) (value : V) : TlsMapDelta K V :=
  ⟨delta.mutations ++ [.update key value]⟩

def delete (delta : TlsMapDelta K V) (key : K) : TlsMapDelta K V :=
  ⟨delta.mutations ++ [.delete key]⟩

theorem foldlM_push {ε α : Type} {step : TlsMapDelta K V → α → Except ε (TlsMapDelta K V)}
    {mutation : α → Option (TlsMapMutation K V)} {as : List α}
    (h : ∀ delta, ∀ a ∈ as, step delta a = .ok ⟨delta.mutations ++ (mutation a).toList⟩)
    (delta : TlsMapDelta K V) :
    as.foldlM step delta = .ok ⟨delta.mutations ++ as.filterMap mutation⟩ := by
  induction as generalizing delta with
  | nil => simp [pure, Except.pure]
  | cons a as ih =>
    rw [List.foldlM_cons, h delta a List.mem_cons_self, ok_bind,
      ih fun delta b hb => h delta b (List.mem_cons_of_mem _ hb)]
    cases hmutation : mutation a with
    | none => rw [List.filterMap_cons_none hmutation, Option.toList_none, List.append_nil]
    | some mu =>
      rw [List.filterMap_cons_some hmutation, Option.toList_some, List.append_assoc]
      rfl

end LibXmtp.Data.TlsMapDelta

namespace LibXmtp.AppData

open LibXmtp.Data LibXmtp.Groups

section Build

variable (host : BootstrapHost)

def encodeMembershipEntry (sequenceId : UInt64) : Bytes :=
  host.encodeGroupMembershipEntry ⟨sequenceId, []⟩

def memberInboxId (inboxId : String) : Except ComponentSourceError InboxId :=
  (InboxId.fromHex host.hex inboxId).mapError .invalidInboxId

def writeMember (old : GroupMembership) (delta : TlsMapDelta InboxId Bytes)
    (member : String × UInt64) : Except ComponentSourceError (TlsMapDelta InboxId Bytes) :=
  let entry := encodeMembershipEntry host member.2
  match old.members.get member.1 with
  | none => do
    let inboxId ← memberInboxId host member.1
    return delta.insert inboxId entry
  | some oldSeq =>
    if oldSeq ≠ member.2 then do
      let inboxId ← memberInboxId host member.1
      return delta.update inboxId entry
    else return delta

def deleteMember (new : GroupMembership) (delta : TlsMapDelta InboxId Bytes) (inboxId : String) :
    Except ComponentSourceError (TlsMapDelta InboxId Bytes) :=
  if !new.members.containsKey inboxId then do
    let inboxId ← memberInboxId host inboxId
    return delta.delete inboxId
  else return delta

def groupMembershipDelta (old new : GroupMembership) :
    Except ComponentSourceError (TlsMapDelta InboxId Bytes) := do
  let delta ← new.members.entries.foldlM (writeMember host old) .new
  old.members.keys.foldlM (deleteMember host new) delta

def encodeMutation (delta : TlsMapDelta InboxId Bytes) : Except ComponentTypedError Bytes :=
  ((TlsMapDelta.codec host.vlen (InboxId.codec host.vlen) host.vlen.bytes).serialize delta).mapError
    .tlsCodec

def buildGroupMembershipAppDataPayload (old new : GroupMembership) :
    Except ComponentSourceError Bytes := do
  let delta ← groupMembershipDelta host old new
  (encodeMutation host delta).mapError .ofTyped

end Build

/-- The inbox ids that are keys, each spelled as it is encoded. -/
def CanonicalKeys (hex : Hex) (keys : List String) : Prop :=
  ∀ key ∈ keys, ∃ id : InboxId, key = id.toHex hex

section Mutations

variable {host : BootstrapHost} {old new : GroupMembership}

theorem memberInboxId_toHex (id : InboxId) : memberInboxId host (id.toHex host.hex) = .ok id := by
  rw [memberInboxId, InboxId.fromHex, InboxId.toHex, host.hex.decode_encode]
  simp only [dif_pos id.length_eq]
  rfl

theorem toHex_inj {hex : Hex} {a b : InboxId} : a.toHex hex = b.toHex hex ↔ a = b := by
  rw [InboxId.toHex, InboxId.toHex, hex.encode_inj]
  exact InboxId.bytes_injective.eq_iff

theorem containsKey_toHex {members : HashMap String UInt64} {ids : List InboxId} {hex : Hex}
    (h : members.keys = ids.map (InboxId.toHex hex)) {id : InboxId} :
    members.containsKey (id.toHex hex) = true ↔ id ∈ ids := by
  rw [← HashMap.mem_keys, h, List.mem_map]
  constructor
  · rintro ⟨other, hother, heq⟩
    exact toHex_inj.mp heq ▸ hother
  · intro hid
    exact ⟨id, hid, rfl⟩

def writtenMutation (host : BootstrapHost) (old : GroupMembership) (member : InboxId × UInt64) :
    Option (TlsMapMutation InboxId Bytes) :=
  match old.members.get (member.1.toHex host.hex) with
  | none => some (.insert member.1 (encodeMembershipEntry host member.2))
  | some oldSeq =>
    if oldSeq ≠ member.2 then some (.update member.1 (encodeMembershipEntry host member.2))
    else none

def deletedMutation (host : BootstrapHost) (new : GroupMembership) (id : InboxId) :
    Option (TlsMapMutation InboxId Bytes) :=
  if !new.members.containsKey (id.toHex host.hex) then some (.delete id) else none

theorem writeMember_eq (delta : TlsMapDelta InboxId Bytes) (member : InboxId × UInt64) :
    writeMember host old delta (member.1.toHex host.hex, member.2) =
      .ok ⟨delta.mutations ++ (writtenMutation host old member).toList⟩ := by
  rw [writeMember, writtenMutation]
  cases old.members.get (member.1.toHex host.hex) with
  | none =>
    simp only [memberInboxId_toHex, ok_bind]
    rfl
  | some oldSeq =>
    by_cases hsame : oldSeq ≠ member.2
    · simp only [if_pos hsame, memberInboxId_toHex, ok_bind]
      rfl
    · simp only [if_neg hsame, Option.toList_none, List.append_nil]
      rfl

theorem deleteMember_eq (delta : TlsMapDelta InboxId Bytes) (id : InboxId) :
    deleteMember host new delta (id.toHex host.hex) =
      .ok ⟨delta.mutations ++ (deletedMutation host new id).toList⟩ := by
  rw [deleteMember, deletedMutation]
  cases new.members.containsKey (id.toHex host.hex) with
  | false =>
    simp only [Bool.not_false, if_true, memberInboxId_toHex, ok_bind]
    rfl
  | true =>
    simp only [Bool.not_true, Bool.false_eq_true, if_false, Option.toList_none, List.append_nil]
    rfl

theorem groupMembershipDelta_eq {members : List (InboxId × UInt64)} {ids : List InboxId}
    (hnew : new.members.entries = members.map fun member => (member.1.toHex host.hex, member.2))
    (hold : old.members.keys = ids.map (InboxId.toHex host.hex)) :
    groupMembershipDelta host old new = .ok ⟨members.filterMap (writtenMutation host old) ++
      ids.filterMap (deletedMutation host new)⟩ := by
  have hwrite := TlsMapDelta.foldlM_push fun delta member (_ : member ∈ members) =>
    @writeMember_eq host old delta member
  have hdelete := TlsMapDelta.foldlM_push fun delta id (_ : id ∈ ids) =>
    @deleteMember_eq host new delta id
  rw [groupMembershipDelta, hnew, hold, List.foldlM_map, hwrite, ok_bind, List.foldlM_map, hdelete]
  rfl

theorem exists_ids {hex : Hex} {keys : List String} (h : CanonicalKeys hex keys) :
    ∃ ids : List InboxId, keys = ids.map (InboxId.toHex hex) := by
  induction keys with
  | nil => exact ⟨[], rfl⟩
  | cons key keys ih =>
    obtain ⟨id, hid⟩ := h key List.mem_cons_self
    obtain ⟨ids, hids⟩ := ih fun key hkey => h key (List.mem_cons_of_mem _ hkey)
    exact ⟨id :: ids, by rw [hid, hids, List.map_cons]⟩

theorem exists_members {hex : Hex} {entries : List (String × UInt64)}
    (h : CanonicalKeys hex (entries.map Prod.fst)) : ∃ members : List (InboxId × UInt64),
      entries = members.map fun member => (member.1.toHex hex, member.2) := by
  induction entries with
  | nil => exact ⟨[], rfl⟩
  | cons entry entries ih =>
    obtain ⟨id, hid⟩ := h entry.1 (by simp)
    obtain ⟨members, hmembers⟩ := ih fun key hkey => h key (by simp [hkey])
    refine ⟨(id, entry.2) :: members, ?_⟩
    rw [List.map_cons, ← hmembers, ← hid]

end Mutations

section Apply

variable {host : BootstrapHost} {old new : GroupMembership} {m n : TlsMap InboxId Bytes}

theorem steps_written {members : List (InboxId × UInt64)} (hnodup : (members.map Prod.fst).Nodup)
    (hold : ∀ member ∈ members, (m.get member.1).isSome =
      (old.members.get (member.1.toHex host.hex)).isSome) :
    ∃ n, Steps TlsMap.mutate m (members.filterMap (writtenMutation host old)) n ∧
      (∀ member ∈ members, n.get member.1 =
        if old.members.get (member.1.toHex host.hex) = some member.2 then m.get member.1
        else some (encodeMembershipEntry host member.2)) ∧
      ∀ id, id ∉ members.map Prod.fst → n.get id = m.get id := by
  induction members generalizing m with
  | nil => exact ⟨m, .nil, by simp, fun id _ => rfl⟩
  | cons member members ih =>
    obtain ⟨hfresh, hnodup⟩ := List.nodup_cons.mp (List.map_cons ▸ hnodup)
    have hhead := hold member List.mem_cons_self
    have htail : ∀ other ∈ members, other.1 ≠ member.1 := fun other hother heq =>
      hfresh (heq ▸ List.mem_map_of_mem hother)
    by_cases hsame : old.members.get (member.1.toHex host.hex) = some member.2
    · have hnone : writtenMutation host old member = none := by simp [writtenMutation, hsame]
      obtain ⟨n, hsteps, hwritten, hkept⟩ := ih hnodup fun other hother =>
        hold other (List.mem_cons_of_mem _ hother)
      rw [List.filterMap_cons_none hnone]
      refine ⟨n, hsteps, fun other hother => ?_, fun id hid => hkept id (by grind)⟩
      cases List.mem_cons.mp hother with
      | inl heq =>
        subst heq
        rw [if_pos hsame, hkept _ hfresh]
      | inr hother => exact hwritten other hother
    · obtain ⟨mutation, hmutation, hmutate⟩ : ∃ mutation,
          writtenMutation host old member = some mutation ∧ m.mutate mutation =
            .ok (m.set member.1 (encodeMembershipEntry host member.2)) := by
        cases hget : old.members.get (member.1.toHex host.hex) with
        | none =>
          rw [hget, Option.isSome_none, Option.isSome_eq_false_iff,
            Option.isNone_iff_eq_none] at hhead
          exact ⟨_, by simp only [writtenMutation, hget], TlsMap.mutate_insert.mpr ⟨hhead, rfl⟩⟩
        | some oldSeq =>
          rw [hget, Option.isSome_some] at hhead
          have hne : oldSeq ≠ member.2 := fun heq => hsame (by rw [hget, heq])
          exact ⟨_, by simp only [writtenMutation, hget, if_pos hne],
            TlsMap.mutate_update.mpr ⟨hhead, rfl⟩⟩
      obtain ⟨n, hsteps, hwritten, hkept⟩ := ih
        (m := m.set member.1 (encodeMembershipEntry host member.2)) hnodup fun other hother => by
          rw [TlsMap.get_set, if_neg (htail other hother)]
          exact hold other (List.mem_cons_of_mem _ hother)
      rw [List.filterMap_cons_some hmutation]
      refine ⟨n, .cons hmutate hsteps, fun other hother => ?_, fun id hid => ?_⟩
      · cases List.mem_cons.mp hother with
        | inl heq =>
          subst heq
          rw [if_neg hsame, hkept _ hfresh, TlsMap.get_set, if_pos rfl]
        | inr hother =>
          rw [hwritten other hother, TlsMap.get_set, if_neg (htail other hother)]
      · have hne : id ≠ member.1 := fun heq => hid (by simp [heq])
        rw [hkept id (by grind), TlsMap.get_set, if_neg hne]

theorem steps_deleted {ids : List InboxId} (hnodup : ids.Nodup)
    (hsome : ∀ id ∈ ids, (m.get id).isSome = true) :
    ∃ n, Steps TlsMap.mutate m (ids.filterMap (deletedMutation host new)) n ∧
      (∀ id ∈ ids, new.members.containsKey (id.toHex host.hex) = false → n.get id = none) ∧
      ∀ id, id ∉ ids ∨ new.members.containsKey (id.toHex host.hex) = true →
        n.get id = m.get id := by
  induction ids generalizing m with
  | nil => exact ⟨m, .nil, by simp, fun id _ => rfl⟩
  | cons deleted ids ih =>
    obtain ⟨hfresh, hnodup⟩ := List.nodup_cons.mp hnodup
    cases hcontains : new.members.containsKey (deleted.toHex host.hex) with
    | true =>
      obtain ⟨n, hsteps, hdeleted, hkept⟩ := ih hnodup fun id hid =>
        hsome id (List.mem_cons_of_mem _ hid)
      rw [List.filterMap_cons_none (by simp [deletedMutation, hcontains])]
      refine ⟨n, hsteps, fun id hid hgone => ?_, fun id hid => hkept id (by grind)⟩
      cases List.mem_cons.mp hid with
      | inl heq =>
        rw [heq, hcontains] at hgone
        cases hgone
      | inr hid => exact hdeleted id hid hgone
    | false =>
      have hne : ∀ id ∈ ids, id ≠ deleted := fun id hid heq => hfresh (heq ▸ hid)
      obtain ⟨n, hsteps, hdeleted, hkept⟩ := ih (m := m.erase deleted) hnodup fun id hid => by
        rw [TlsMap.get_erase, if_neg (hne id hid)]
        exact hsome id (List.mem_cons_of_mem _ hid)
      rw [List.filterMap_cons_some (b := .delete deleted) (by simp [deletedMutation, hcontains])]
      refine ⟨n, .cons (TlsMap.mutate_delete.mpr ⟨hsome deleted List.mem_cons_self, rfl⟩) hsteps,
        fun id hid hgone => ?_, fun id hid => ?_⟩
      · cases List.mem_cons.mp hid with
        | inl heq =>
          rw [heq, hkept deleted (.inl hfresh), TlsMap.get_erase, if_pos rfl]
        | inr hid => exact hdeleted id hid hgone
      · have hid' : id ≠ deleted := by
          intro heq
          rw [heq, hcontains] at hid
          simp at hid
        rw [hkept id (by grind), TlsMap.get_erase, if_neg hid']

end Apply

section Read

variable {wire : MembershipWire} {m n : TlsMap InboxId Bytes}

def readEntry (wire : MembershipWire) (raw : Bytes) : Groups.Proto.GroupMembershipEntryV1 :=
  (wire.decodeGroupMembershipEntry raw).join.getD ⟨0, []⟩

def readMember (wire : MembershipWire) (member : InboxId × Bytes) :
    InboxId × Groups.Proto.GroupMembershipEntryV1 :=
  (member.1, readEntry wire member.2)

def Readable (wire : MembershipWire) (m : TlsMap InboxId Bytes) : Prop :=
  ∀ id raw, m.get id = some raw →
    wire.decodeGroupMembershipEntry raw = some (some (readEntry wire raw))

theorem readMembers_eq_ok {members : List (InboxId × Bytes)}
    {entries : List (InboxId × Groups.Proto.GroupMembershipEntryV1)} :
    (members.mapM fun (key, value) => do
        let envelope ← okOr (wire.decodeGroupMembershipEntry value) MembershipDictError.decode
        let entry ← okOr envelope .groupMembershipEntryUnknownVersion
        return (key, entry)) = .ok entries ↔
      (∀ member ∈ members, wire.decodeGroupMembershipEntry member.2 =
        some (some (readEntry wire member.2))) ∧ members.map (readMember wire) = entries := by
  induction members generalizing entries with
  | nil => simp [pure, Except.pure]
  | cons member members ih =>
    simp only [List.mapM_cons, bind_eq_ok, okOr_eq_ok, pure_eq_ok, ih, List.map_cons,
      List.forall_mem_cons]
    constructor
    · rintro ⟨_, ⟨envelope, henvelope, entry, hentry, heq⟩, _, ⟨hread, hmap⟩, hentries⟩
      subst heq hmap hentries
      have hmember : readEntry wire member.2 = entry := by
        rw [readEntry, henvelope, hentry]
        rfl
      exact ⟨⟨by rw [henvelope, hentry, hmember], hread⟩, by rw [readMember, hmember]⟩
    · rintro ⟨⟨hmember, hread⟩, hmap⟩
      exact ⟨_, ⟨_, hmember, _, rfl, rfl⟩, _, ⟨hread, rfl⟩, hmap⟩

theorem decodeGroupMembershipDict_eq_ok {value : Bytes}
    {entries : List (InboxId × Groups.Proto.GroupMembershipEntryV1)} :
    decodeGroupMembershipDict wire value = .ok entries ↔
      ∃ m, (TlsMap.codec wire.vlen (InboxId.codec wire.vlen)
          wire.vlen.bytes).deserializeExact value = .ok m ∧
        Readable wire m ∧ m.iter.map (readMember wire) = entries := by
  simp only [decodeGroupMembershipDict, bind_eq_ok, mapError_eq_ok, readMembers_eq_ok]
  constructor
  · rintro ⟨m, hm, hread, hentries⟩
    exact ⟨m, hm, fun id raw hget => hread (id, raw) (TlsMap.mem_iter.mpr hget), hentries⟩
  · rintro ⟨m, hm, hread, hentries⟩
    exact ⟨m, hm, fun member hmember => hread _ _ (TlsMap.mem_iter.mp hmember), hentries⟩

theorem get_flattenEntries {inboxId : String} {sequenceId : UInt64} :
    (flattenEntries wire (m.iter.map (readMember wire))).members.get inboxId = some sequenceId ↔
      ∃ id raw, m.get id = some raw ∧ id.toHex wire.hex = inboxId ∧
        (readEntry wire raw).sequenceId = sequenceId := by
  have hmem : ∀ member, member ∈ (m.iter.map (readMember wire)).map (fun entry =>
      (entry.1.toHex wire.hex, entry.2.sequenceId)) ↔ ∃ id raw, m.get id = some raw ∧
        (id.toHex wire.hex, (readEntry wire raw).sequenceId) = member := by
    intro member
    simp only [List.map_map, List.mem_map, Prod.exists, TlsMap.mem_iter]
    rfl
  rw [flattenEntries, HashMap.get_ofList_eq_some_iff, hmem]
  · simp only [Prod.mk.injEq]
  · intro a ha b hb heq
    obtain ⟨id, raw, hget, rfl⟩ := (hmem a).mp ha
    obtain ⟨id', raw', hget', rfl⟩ := (hmem b).mp hb
    cases toHex_inj.mp heq
    cases hget.symm.trans hget'
    rfl

theorem get_flattenEntries_toHex (id : InboxId) :
    (flattenEntries wire (m.iter.map (readMember wire))).members.get (id.toHex wire.hex) =
      (m.get id).map fun raw => (readEntry wire raw).sequenceId := by
  apply Option.ext
  intro sequenceId
  rw [get_flattenEntries, Option.map_eq_some_iff]
  constructor
  · rintro ⟨id', raw, hget, heq, hsequenceId⟩
    cases toHex_inj.mp heq
    exact ⟨raw, hget, hsequenceId⟩
  · rintro ⟨raw, hget, hsequenceId⟩
    exact ⟨id, raw, hget, rfl, hsequenceId⟩

end Read

section Leaves

variable {host : BootstrapHost} {old new : GroupMembership} {m n : TlsMap InboxId Bytes}

/-- What the update leaves of a member: nothing if it is gone, its entry if its sequence id stays,
and a new entry otherwise. -/
def leftOf (host : BootstrapHost) (old new : GroupMembership) (m : TlsMap InboxId Bytes)
    (id : InboxId) : Option Bytes :=
  (new.members.get (id.toHex host.hex)).bind fun sequenceId =>
    if old.members.get (id.toHex host.hex) = some sequenceId then m.get id
    else some (encodeMembershipEntry host sequenceId)

theorem writtenMutation_eq_none {member : InboxId × UInt64} :
    writtenMutation host old member = none ↔
      old.members.get (member.1.toHex host.hex) = some member.2 := by
  rw [writtenMutation]
  cases old.members.get (member.1.toHex host.hex) with
  | none => simp
  | some oldSeq => simp

theorem deletedMutation_eq_none {id : InboxId} : deletedMutation host new id = none ↔
    new.members.containsKey (id.toHex host.hex) = true := by
  rw [deletedMutation]
  cases new.members.containsKey (id.toHex host.hex) <;> simp

theorem mutations_eq_nil {members : List (InboxId × UInt64)} {ids : List InboxId}
    (hnew : new.members.entries = members.map fun member => (member.1.toHex host.hex, member.2))
    (hold : old.members.keys = ids.map (InboxId.toHex host.hex)) :
    members.filterMap (writtenMutation host old) ++ ids.filterMap (deletedMutation host new) = [] ↔
      old.members.Equiv new.members := by
  rw [List.append_eq_nil_iff, List.filterMap_eq_nil_iff, List.filterMap_eq_nil_iff]
  constructor
  · rintro ⟨hwritten, hdeleted⟩
    apply HashMap.equiv_of_get
    intro key
    cases hget : new.members.get key with
    | some sequenceId =>
      have hmem := HashMap.get_eq_some_iff.mp hget
      rw [hnew] at hmem
      obtain ⟨member, hmember, heq⟩ := List.mem_map.mp hmem
      cases heq
      exact writtenMutation_eq_none.mp (hwritten member hmember)
    | none =>
      cases hget' : old.members.get key with
      | none => rfl
      | some sequenceId =>
        have hkey : key ∈ old.members.keys := by
          rw [HashMap.mem_keys, HashMap.containsKey_eq_isSome_get, hget', Option.isSome_some]
        rw [hold] at hkey
        obtain ⟨id, hid, rfl⟩ := List.mem_map.mp hkey
        have hcontains := deletedMutation_eq_none.mp (hdeleted id hid)
        rw [HashMap.containsKey_eq_isSome_get, hget] at hcontains
        cases hcontains
  · intro h
    constructor
    · intro member hmember
      rw [writtenMutation_eq_none, h.get, HashMap.get_eq_some_iff, hnew]
      exact List.mem_map_of_mem hmember
    · intro id hid
      rw [deletedMutation_eq_none, ← h.containsKey, ← HashMap.mem_keys, hold]
      exact List.mem_map_of_mem hid

theorem exists_groupMembershipDelta (hnew : CanonicalKeys host.hex new.members.keys)
    (hold : CanonicalKeys host.hex old.members.keys)
    (hget : ∀ id : InboxId, (old.members.get (id.toHex host.hex)).isSome = (m.get id).isSome) :
    ∃ delta n, groupMembershipDelta host old new = .ok delta ∧
      (delta.mutations = [] ↔ old.members.Equiv new.members) ∧
      Steps TlsMap.mutate m delta.mutations n ∧ ∀ id, n.get id = leftOf host old new m id := by
  obtain ⟨members, hmembers⟩ := exists_members hnew
  obtain ⟨ids, hids⟩ := exists_ids hold
  have hmemberKeys : new.members.keys = (members.map Prod.fst).map (InboxId.toHex host.hex) := by
    rw [HashMap.keys, hmembers, List.map_map, List.map_map]
    rfl
  have hnodupMembers := (hmemberKeys ▸ new.members.nodup_keys).of_map
  have hnodupIds := (hids ▸ old.members.nodup_keys).of_map
  obtain ⟨middle, hwrite, hwritten, hkept⟩ :=
    @steps_written host old m members hnodupMembers fun member _ => (hget member.1).symm
  have hmiddle : ∀ id ∈ ids, (middle.get id).isSome = true := by
    intro id hid
    have hsome : (m.get id).isSome = true := by
      rw [← hget, ← HashMap.containsKey_eq_isSome_get]
      exact (containsKey_toHex hids).mpr hid
    by_cases hmem : id ∈ members.map Prod.fst
    · obtain ⟨member, hmember, rfl⟩ := List.mem_map.mp hmem
      rw [hwritten member hmember]
      split
      · exact hsome
      · rfl
    · rw [hkept id hmem, hsome]
  obtain ⟨n, hdelete, hdeleted, hstay⟩ := @steps_deleted host new middle ids hnodupIds hmiddle
  refine ⟨_, n, groupMembershipDelta_eq hmembers hids, mutations_eq_nil hmembers hids,
    hwrite.append hdelete, fun id => ?_⟩
  rw [leftOf]
  cases hid : new.members.get (id.toHex host.hex) with
  | some sequenceId =>
    have hcontains : new.members.containsKey (id.toHex host.hex) = true := by
      rw [HashMap.containsKey_eq_isSome_get, hid, Option.isSome_some]
    have hmem := HashMap.get_eq_some_iff.mp hid
    rw [hmembers] at hmem
    obtain ⟨member, hmember, heq⟩ := List.mem_map.mp hmem
    obtain ⟨hinbox, hsequence⟩ := Prod.mk.inj heq
    cases toHex_inj.mp hinbox
    rw [hstay _ (.inr hcontains), hwritten member hmember, hsequence, Option.bind_some]
  | none =>
    have hcontains : new.members.containsKey (id.toHex host.hex) = false := by
      rw [HashMap.containsKey_eq_isSome_get, hid, Option.isSome_none]
    rw [Option.bind_none]
    by_cases hmem : id ∈ ids
    · exact hdeleted id hmem hcontains
    · have hfresh : id ∉ members.map Prod.fst := by
        rw [← containsKey_toHex hmemberKeys, hcontains]
        exact Bool.false_ne_true
      have hgone : old.members.containsKey (id.toHex host.hex) = false :=
        Bool.eq_false_iff.mpr (mt (containsKey_toHex hids).mp hmem)
      rw [HashMap.containsKey_eq_isSome_get, hget, Option.isSome_eq_false_iff,
        Option.isNone_iff_eq_none] at hgone
      rw [hstay id (.inl hmem), hkept id hfresh, hgone]

end Leaves

/-- The installations listed with the members whose sequence ids stay, in the members' order. -/
def keptFailedInstallations (hex : Hex) (new : GroupMembership)
    (entries : List (InboxId × Groups.Proto.GroupMembershipEntryV1)) : List Bytes :=
  (entries.filter fun entry =>
    new.members.get (entry.1.toHex hex) = some entry.2.sequenceId).flatMap fun entry =>
      entry.2.failedInstallations

theorem flatMap_filter_of_nil {α β : Type} {p : α → Bool} {f : α → List β} {as : List α}
    (h : ∀ a ∈ as, p a = false → f a = []) : (as.filter p).flatMap f = as.flatMap f := by
  induction as with
  | nil => rfl
  | cons a as ih =>
    have ih := ih fun b hb => h b (List.mem_cons_of_mem _ hb)
    cases hp : p a with
    | true => simp [hp, ih]
    | false => simp [hp, ih, h a List.mem_cons_self hp]

section Result

variable {host : BootstrapHost} {old new : GroupMembership} {m n : TlsMap InboxId Bytes}

theorem readEntry_encodeMembershipEntry (hentries : host.ReadsEntries) (sequenceId : UInt64) :
    readEntry host.toMembershipWire (encodeMembershipEntry host sequenceId) = ⟨sequenceId, []⟩ := by
  change (host.decodeGroupMembershipEntry (encodeMembershipEntry host sequenceId)).join.getD _ = _
  rw [encodeMembershipEntry, hentries]
  rfl

theorem readable_of_left (hentries : host.ReadsEntries)
    (hm : Readable host.toMembershipWire m) (hn : ∀ id, n.get id = leftOf host old new m id) :
    Readable host.toMembershipWire n := by
  intro id raw hget
  rw [hn, leftOf, Option.bind_eq_some_iff] at hget
  obtain ⟨sequenceId, _, hget⟩ := hget
  split at hget
  · exact hm id raw hget
  · cases hget
    rw [readEntry_encodeMembershipEntry hentries]
    exact hentries _

theorem sequenceId_of_left (hentries : host.ReadsEntries)
    (hold : ∀ id : InboxId, old.members.get (id.toHex host.hex) =
      (m.get id).map fun raw => (readEntry host.toMembershipWire raw).sequenceId)
    (hn : ∀ id, n.get id = leftOf host old new m id) (id : InboxId) :
    (n.get id).map (fun raw => (readEntry host.toMembershipWire raw).sequenceId) =
      new.members.get (id.toHex host.hex) := by
  rw [hn, leftOf]
  cases new.members.get (id.toHex host.hex) with
  | none => rfl
  | some sequenceId =>
    rw [Option.bind_some]
    split
    · rename_i hsame
      rw [← hold, hsame]
    · rw [Option.map_some, readEntry_encodeMembershipEntry hentries]

theorem members_of_left (hnew : CanonicalKeys host.hex new.members.keys)
    (hsequence : ∀ id : InboxId,
      (n.get id).map (fun raw => (readEntry host.toMembershipWire raw).sequenceId) =
        new.members.get (id.toHex host.hex)) :
    (flattenEntries host.toMembershipWire
      (n.iter.map (readMember host.toMembershipWire))).members.Equiv new.members := by
  apply HashMap.equiv_of_get
  intro key
  by_cases hkey : ∃ id : InboxId, key = id.toHex host.hex
  · obtain ⟨id, rfl⟩ := hkey
    rw [get_flattenEntries_toHex, hsequence]
  · have hnone : new.members.get key = none := by
      rw [← Option.isNone_iff_eq_none, ← Option.not_isSome, ← HashMap.containsKey_eq_isSome_get,
        Bool.not_eq_true', Bool.eq_false_iff]
      exact fun hcontains => hkey (hnew key (HashMap.mem_keys.mpr hcontains))
    rw [hnone, Option.eq_none_iff_forall_ne_some]
    intro sequenceId hget
    obtain ⟨id, _, _, heq, _⟩ := get_flattenEntries.mp hget
    exact hkey ⟨id, heq.symm⟩

theorem failedInstallations_of_left (hentries : host.ReadsEntries)
    (hold : ∀ id : InboxId, old.members.get (id.toHex host.hex) =
      (m.get id).map fun raw => (readEntry host.toMembershipWire raw).sequenceId)
    (hn : ∀ id, n.get id = leftOf host old new m id) :
    (flattenEntries host.toMembershipWire
        (n.iter.map (readMember host.toMembershipWire))).failedInstallations =
      keptFailedInstallations host.hex new (m.iter.map (readMember host.toMembershipWire)) := by
  let stays (id : InboxId) : Bool :=
    new.members.get (id.toHex host.hex) = old.members.get (id.toHex host.hex)
  have hchanged : ∀ member ∈ n.iter, stays member.1 = false →
      (readEntry host.toMembershipWire member.2).failedInstallations = [] := by
    intro member hmember hstays
    have hget := TlsMap.mem_iter.mp hmember
    rw [hn, leftOf, Option.bind_eq_some_iff] at hget
    obtain ⟨sequenceId, hsequenceId, hget⟩ := hget
    split at hget
    · rename_i hsame
      simp [stays, hsequenceId, hsame] at hstays
    · rw [← Option.some.inj hget, readEntry_encodeMembershipEntry hentries]
  have hstay : n.restrict stays = m.restrict stays := by
    apply TlsMap.ext_get
    intro id
    rw [TlsMap.get_restrict, TlsMap.get_restrict]
    split
    · rename_i hstays
      have hsame : new.members.get (id.toHex host.hex) = old.members.get (id.toHex host.hex) := by
        simpa [stays] using hstays
      rw [hn, leftOf]
      cases hget : new.members.get (id.toHex host.hex) with
      | none =>
        rw [hget, hold, eq_comm, Option.map_eq_none_iff] at hsame
        rw [Option.bind_none, hsame]
      | some sequenceId => rw [Option.bind_some, ← hsame, hget, if_pos rfl]
    · rfl
  have hkept : ∀ member ∈ m.iter, stays member.1 = decide (new.members.get
      (member.1.toHex host.hex) = some (readEntry host.toMembershipWire member.2).sequenceId) := by
    intro member hmember
    rw [decide_eq_decide, hold, TlsMap.mem_iter.mp hmember, Option.map_some]
  rw [flattenEntries, List.flatMap_map, keptFailedInstallations, List.filter_map, List.flatMap_map]
  calc n.iter.flatMap (fun member => (readEntry host.toMembershipWire member.2).failedInstallations)
      = (n.restrict stays).iter.flatMap fun member =>
          (readEntry host.toMembershipWire member.2).failedInstallations := by
        rw [TlsMap.iter_restrict, flatMap_filter_of_nil hchanged]
    _ = (m.iter.filter fun member => stays member.1).flatMap fun member =>
          (readEntry host.toMembershipWire member.2).failedInstallations := by
        rw [hstay, TlsMap.iter_restrict]
    _ = _ := by
        rw [List.filter_congr hkept]
        rfl

end Result

/-- Every group whose dictionary has the value is read as having these members and these failed
installations. -/
def ReadAs (host : BootstrapHost) (value : Bytes) (members : HashMap String UInt64)
    (failedInstallations : List Bytes) : Prop :=
  ∃ membership, readGroupMembership host.toMembershipWire value = .ok membership ∧
    membership.members.Equiv members ∧ membership.failedInstallations = failedInstallations ∧
    ∀ extensions : Extensions, extensions.isMigrated = true →
      readFromAppDataDict ComponentId.groupMembership extensions = some value →
        readGroupMembershipFromDict host.toMembershipWire extensions = .ok (some membership)

section RoundTrip

variable {host : BootstrapHost} {old new : GroupMembership} {value : Bytes}
  {m n : TlsMap InboxId Bytes} {delta : TlsMapDelta InboxId Bytes} {payload value' : Bytes}

theorem readAs_of_serialize (hentries : host.ReadsEntries)
    (hm : Readable host.toMembershipWire m)
    (hold : ∀ id : InboxId, old.members.get (id.toHex host.hex) =
      (m.get id).map fun raw => (readEntry host.toMembershipWire raw).sequenceId)
    (hnew : CanonicalKeys host.hex new.members.keys)
    (hn : ∀ id, n.get id = leftOf host old new m id)
    (h : (TlsMap.codec host.vlen (InboxId.codec host.vlen) host.vlen.bytes).serialize n =
      .ok value') : ReadAs host value' new.members
      (keptFailedInstallations host.hex new (m.iter.map (readMember host.toMembershipWire))) := by
  have hread := (TlsMap.codec_roundTrips (InboxId.codec_lawful _) (InboxId.codec_positive _)
    Vlen.bytes_lawful).deserializeExact_serialize h
  have hdecode : decodeGroupMembershipDict host.toMembershipWire value' =
      .ok (n.iter.map (readMember host.toMembershipWire)) :=
    decodeGroupMembershipDict_eq_ok.mpr ⟨n, hread, readable_of_left hentries hm hn, rfl⟩
  have hmembership : readGroupMembership host.toMembershipWire value' = .ok (flattenEntries
      host.toMembershipWire (n.iter.map (readMember host.toMembershipWire))) := by
    rw [readGroupMembership, hdecode]
  refine ⟨_, hmembership, members_of_left hnew (sequenceId_of_left hentries hold hn),
    failedInstallations_of_left hentries hold hn, fun extensions hmigrated hvalue => ?_⟩
  rw [readGroupMembershipFromDict, if_pos hmigrated, hvalue]
  simp [hmembership]

theorem applyUpdatePayload_eq_ok
    (hvalue : (TlsMap.codec host.vlen (InboxId.codec host.vlen)
      host.vlen.bytes).deserializeExact value = .ok m)
    (hdelta : decodeMapDelta host.toWire (InboxId.codec host.vlen) payload = .ok delta)
    (hsteps : Steps TlsMap.mutate m delta.mutations n) :
    (groupMembershipComponent host.toWire).applyUpdatePayload payload (some value) = .ok value' ↔
      (TlsMap.codec host.vlen (InboxId.codec host.vlen) host.vlen.bytes).serialize n =
        .ok value' := by
  have hread : readMap host.toWire (InboxId.codec host.vlen) (some value) = .ok m := by
    rw [readMap, mapError_eq_ok]
    exact hvalue
  have hfold := Steps.foldlM_eq_ok.mpr hsteps
  change applyTlsMapDelta host.toWire (InboxId.codec host.vlen) payload (some value) = _ ↔ _
  rw [applyTlsMapDelta, hdelta, ok_bind, applyDecodedMapDelta_eq_ok]
  constructor
  · rintro ⟨m', hm', n', hn', hserialize⟩
    cases hread.symm.trans hm'
    cases hfold.symm.trans (Steps.foldlM_eq_ok.mpr hn')
    exact hserialize
  · intro hserialize
    exact ⟨m, hread, n, hsteps, hserialize⟩

end RoundTrip

/-- The update made of two memberships can be applied to a dictionary of the first, as long as its
codec can write lengths that great, and leaves one of the second: its members, and the failed
installations of those whose sequence ids stay. -/
theorem groupMembership_delta_round_trip (host : BootstrapHost) (old new : GroupMembership)
    (value : Bytes) (entries : List (InboxId × Groups.Proto.GroupMembershipEntryV1))
    (hvlen : host.vlen.Downward) (hentries : host.ReadsEntries)
    (hvalue : decodeGroupMembershipDict host.toMembershipWire value = .ok entries)
    (hold : old.members.Equiv (flattenEntries host.toMembershipWire entries).members)
    (hnew : CanonicalKeys host.hex new.members.keys) :
    ∃ delta, groupMembershipDelta host old new = .ok delta ∧
      (delta.mutations = [] ↔ old.members.Equiv new.members) ∧
      buildGroupMembershipAppDataPayload host old new =
        (encodeMutation host delta).mapError .ofTyped ∧
      ∀ payload, buildGroupMembershipAppDataPayload host old new = .ok payload →
        decodeMapDelta host.toWire (InboxId.codec host.vlen) payload = .ok delta ∧
        ((∃ length, host.vlen.writeLength (value.length + payload.length) = .ok length) →
          ∃ value', (groupMembershipComponent host.toWire).applyUpdatePayload payload (some value) =
            .ok value') ∧
        ∀ value', (groupMembershipComponent host.toWire).applyUpdatePayload payload (some value) =
            .ok value' →
          ReadAs host value' new.members (keptFailedInstallations host.hex new entries) := by
  obtain ⟨m, hm, hreadable, rfl⟩ := decodeGroupMembershipDict_eq_ok.mp hvalue
  have hget : ∀ id : InboxId, old.members.get (id.toHex host.hex) =
      (m.get id).map fun raw => (readEntry host.toMembershipWire raw).sequenceId := by
    intro id
    rw [hold.get]
    exact get_flattenEntries_toHex id
  have holdKeys : CanonicalKeys host.hex old.members.keys := by
    intro key hkey
    rw [HashMap.mem_keys, hold.containsKey, HashMap.containsKey_eq_isSome_get,
      Option.isSome_iff_exists] at hkey
    obtain ⟨sequenceId, hsome⟩ := hkey
    obtain ⟨id, _, _, heq, _⟩ := get_flattenEntries.mp hsome
    exact ⟨id, heq.symm⟩
  obtain ⟨delta, n, hdelta, hempty, hsteps, hn⟩ :=
    exists_groupMembershipDelta (m := m) hnew holdKeys fun id => by rw [hget, Option.isSome_map]
  have hbuild : buildGroupMembershipAppDataPayload host old new =
      (encodeMutation host delta).mapError .ofTyped := by
    rw [buildGroupMembershipAppDataPayload, hdelta, ok_bind]
  refine ⟨delta, hdelta, hempty, hbuild, fun payload hpayload => ?_⟩
  rw [hbuild, mapError_eq_ok, encodeMutation, mapError_eq_ok] at hpayload
  have hdecode : decodeMapDelta host.toWire (InboxId.codec host.vlen) payload = .ok delta := by
    rw [decodeMapDelta, mapError_eq_ok]
    exact (TlsMapDelta.codec_roundTrips (InboxId.codec_lawful _)
      Vlen.bytes_lawful).deserializeExact_serialize hpayload
  refine ⟨hdecode, fun hlength => ?_, fun value' happly => ?_⟩
  · obtain ⟨value', hvalue'⟩ := TlsMap.exists_serialize_of_steps hvlen (InboxId.codec_lawful _)
      Vlen.bytes_lawful hm hpayload hsteps hlength
    exact ⟨value', (applyUpdatePayload_eq_ok hm hdecode hsteps).mpr hvalue'⟩
  · exact readAs_of_serialize hentries hreadable hget hnew hn
      ((applyUpdatePayload_eq_ok hm hdecode hsteps).mp happly)

namespace DeltaSample

open BootstrapSample

def sampleValue : Bytes :=
  ((TlsMap.codec Vlen.quic (InboxId.codec Vlen.quic) Vlen.quic.bytes).serialize
    (TlsMap.ofPairs [(⟨List.replicate 32 0xAA, rfl⟩, encodeEntry ⟨1, []⟩)])).toOption.getD []

def sampleEntries : List (InboxId × Groups.Proto.GroupMembershipEntryV1) :=
  (decodeGroupMembershipDict host.toMembershipWire sampleValue).toOption.getD []

def sampleOld : GroupMembership :=
  ⟨(flattenEntries host.toMembershipWire sampleEntries).members, []⟩

def added : InboxId := ⟨List.replicate 32 0xBB, rfl⟩

def sampleNew : GroupMembership := ⟨.ofList [(added.toHex .lower, 2)], []⟩

def samplePayload : Bytes :=
  (buildGroupMembershipAppDataPayload host sampleOld sampleNew).toOption.getD []

theorem canonical_new : CanonicalKeys host.hex sampleNew.members.keys := by
  intro key hkey
  exact ⟨added, List.mem_singleton.mp hkey⟩

def spelledNew : GroupMembership := ⟨.ofList [(spelled, 1)], []⟩

def spelledPayload : Bytes :=
  (buildGroupMembershipAppDataPayload host ⟨.empty, []⟩ spelledNew).toOption.getD []

def spelledValue : Bytes :=
  ((groupMembershipComponent host.toWire).applyUpdatePayload spelledPayload
    (some [0])).toOption.getD []

end DeltaSample

open BootstrapSample DeltaSample in
theorem groupMembership_delta_round_trip_replaced : ∃ value',
    buildGroupMembershipAppDataPayload host sampleOld sampleNew = .ok samplePayload ∧
      (groupMembershipComponent host.toWire).applyUpdatePayload samplePayload (some sampleValue) =
        .ok value' ∧ ReadAs host value' sampleNew.members [] := by
  have hvalue : decodeGroupMembershipDict host.toMembershipWire sampleValue = .ok sampleEntries :=
    eq_ok_of_isOk (by decide +kernel)
  have hpayload : buildGroupMembershipAppDataPayload host sampleOld sampleNew = .ok samplePayload :=
    eq_ok_of_isOk (by decide +kernel)
  obtain ⟨_, _, _, _, happlies⟩ := groupMembership_delta_round_trip host sampleOld sampleNew
    sampleValue sampleEntries Vlen.quic_downward decodeEntry_encodeEntry hvalue (.refl _)
    canonical_new
  obtain ⟨_, hfits, hread⟩ := happlies samplePayload hpayload
  have hlength : (Vlen.quic.writeLength (sampleValue.length + samplePayload.length)).isOk = true := by
    decide +kernel
  obtain ⟨value', hvalue'⟩ := hfits ⟨_, eq_ok_of_isOk (a := []) hlength⟩
  have hkept : keptFailedInstallations host.hex sampleNew sampleEntries = [] := by decide +kernel
  exact ⟨value', hpayload, hvalue', hkept ▸ hread value' hvalue'⟩

open BootstrapSample DeltaSample in
/-- A new member whose valid id is spelled with upper-case digits comes back under another key. -/
theorem delta_of_upper_case_members :
    (InboxId.fromHex .lower spelled).isOk = true ∧
      buildGroupMembershipAppDataPayload host ⟨.empty, []⟩ spelledNew = .ok spelledPayload ∧
      (groupMembershipComponent host.toWire).applyUpdatePayload spelledPayload (some [0]) =
        .ok spelledValue ∧
      ∃ membership, readGroupMembership host.toMembershipWire spelledValue = .ok membership ∧
        spelledNew.members.get spelled = some 1 ∧ membership.members.get spelled = none := by
  refine ⟨by decide +kernel, eq_ok_of_isOk (by decide +kernel), eq_ok_of_isOk (by decide +kernel),
    _, eq_ok_of_isOk (a := ⟨.empty, []⟩) (by decide +kernel), by decide +kernel, by decide +kernel⟩

end LibXmtp.AppData
