import LibXmtp.Associations.Serialization
import LibXmtp.Data.Text

namespace LibXmtp.Associations

open LibXmtp.Data

inductive ActionShape
  | createInbox
  | addAssociation (kind : MemberKind)
  | revokeAssociation (kind : MemberKind)
  | changeRecoveryAddress
  deriving DecidableEq

namespace ActionShape

def title : ActionShape → String
  | .createInbox => "Create inbox"
  | .addAssociation kind => UnsignedAddAssociation.prefixText kind
  | .revokeAssociation kind => UnsignedRevokeAssociation.prefixText kind
  | .changeRecoveryAddress => "Change inbox recovery address"

def label : ActionShape → String
  | .createInbox => "Owner"
  | .addAssociation kind => getIdentifierText kind
  | .revokeAssociation kind => getIdentifierText kind
  | .changeRecoveryAddress => "Address"

theorem title_inj {s t : ActionShape} (h : s.title = t.title) : s = t := by
  revert h
  cases s <;> cases t
  case createInbox.createInbox => exact fun _ => rfl
  case changeRecoveryAddress.changeRecoveryAddress => exact fun _ => rfl
  case createInbox.addAssociation k => cases k <;> decide
  case createInbox.revokeAssociation k => cases k <;> decide
  case createInbox.changeRecoveryAddress => decide
  case addAssociation.createInbox k => cases k <;> decide
  case addAssociation.addAssociation k l => cases k <;> cases l <;> decide
  case addAssociation.revokeAssociation k l => cases k <;> cases l <;> decide
  case addAssociation.changeRecoveryAddress k => cases k <;> decide
  case revokeAssociation.createInbox k => cases k <;> decide
  case revokeAssociation.addAssociation k l => cases k <;> cases l <;> decide
  case revokeAssociation.revokeAssociation k l => cases k <;> cases l <;> decide
  case revokeAssociation.changeRecoveryAddress k => cases k <;> decide
  case changeRecoveryAddress.createInbox => decide
  case changeRecoveryAddress.addAssociation k => cases k <;> decide
  case changeRecoveryAddress.revokeAssociation k => cases k <;> decide

theorem title_single_line (s : ActionShape) : '\n' ∉ ("- " ++ s.title).toList := by
  cases s with
  | createInbox => decide
  | addAssociation kind => cases kind <;> decide
  | revokeAssociation kind => cases kind <;> decide
  | changeRecoveryAddress => decide

theorem label_single_line (s : ActionShape) : '\n' ∉ s.label.toList := by
  cases s with
  | createInbox => decide
  | addAssociation kind => cases kind <;> decide
  | revokeAssociation kind => cases kind <;> decide
  | changeRecoveryAddress => decide

end ActionShape

section Text

variable {crates : Crates}

theorem hex_single_line (key : Bytes) : '\n' ∉ (crates.hex.encode key).toList := by
  intro h
  exact absurd (crates.hex.mem_encode h) (by decide)

theorem MemberIdentifier.beq_of_display {a b : MemberIdentifier} (hkind : a.kind = b.kind)
    (h : a.display crates = b.display crates) : (a == b) = true := by
  cases a <;> cases b
  case installation.installation => simpa [beq_eq, eq] using crates.hex.encode_inj.mp h
  case ethereum.ethereum => simpa [beq_eq, eq, display] using h
  case passkey.passkey => simpa [beq_eq, eq] using crates.hex.encode_inj.mp h
  all_goals cases hkind

namespace UnsignedAction

def shape : UnsignedAction → ActionShape
  | .createInbox _ => .createInbox
  | .addAssociation a => .addAssociation a.newMemberIdentifier.kind
  | .revokeAssociation a => .revokeAssociation a.revokedMember.kind
  | .changeRecoveryAddress _ => .changeRecoveryAddress

def subject : UnsignedAction → MemberIdentifier
  | .createInbox a => a.accountIdentifier.toMember
  | .addAssociation a => a.newMemberIdentifier
  | .revokeAssociation a => a.revokedMember
  | .changeRecoveryAddress a => a.newRecoveryIdentifier.toMember

def Same (a b : UnsignedAction) : Prop := a.shape = b.shape ∧ (a.subject == b.subject) = true

/-- An Ethereum identifier is one line, and where the text does not say the kind of the
identifier, it is not what a passkey would be printed as. -/
structure Plain (crates : Crates) (a : UnsignedAction) : Prop where
  single_line : ∀ address, a.subject = .ethereum address → '\n' ∉ address.toList
  not_hex : (a.shape = .createInbox ∨ a.shape = .changeRecoveryAddress) →
    ∀ address key, a.subject = .ethereum address → crates.hex.encode key ≠ address

def secondLine (crates : Crates) (a : UnsignedAction) : String :=
  "  (" ++ a.shape.label ++ ": " ++ a.subject.display crates ++ ")"

theorem actionText_eq (title label subject : String) :
    "- " ++ title ++ "\n  (" ++ label ++ ": " ++ subject ++ ")" =
      "- " ++ title ++ "\n" ++ ("  (" ++ label ++ ": " ++ subject ++ ")") := by
  have hbreak : "\n  (" = "\n" ++ "  (" := by decide
  rw [hbreak]
  simp only [String.append_assoc]

theorem signatureText_eq (a : UnsignedAction) :
    a.signatureText crates = "- " ++ a.shape.title ++ "\n" ++ a.secondLine crates := by
  rw [secondLine, ← actionText_eq]
  cases a with
  | createInbox a =>
    have hstart : "- Create inbox\n  (Owner: " =
      "- " ++ "Create inbox" ++ "\n  (" ++ "Owner" ++ ": " := by decide
    exact congrArg (· ++ a.accountIdentifier.toMember.display crates ++ ")") hstart
  | addAssociation a => rfl
  | revokeAssociation a => rfl
  | changeRecoveryAddress a =>
    have hstart : "- Change inbox recovery address\n  (Address: " =
      "- " ++ "Change inbox recovery address" ++ "\n  (" ++ "Address" ++ ": " := by decide
    exact congrArg (· ++ a.newRecoveryIdentifier.toMember.display crates ++ ")") hstart

namespace Plain

variable {a b : UnsignedAction}

theorem display_single_line (h : a.Plain crates) :
    '\n' ∉ (a.subject.display crates).toList := by
  cases hs : a.subject with
  | installation key => exact hex_single_line key
  | ethereum address => exact h.single_line address hs
  | passkey p => exact hex_single_line p.key

theorem of_isValidAddress (h : ∀ address, a.subject = .ethereum address →
    (Identifier.ethereum address).isValidAddress = true) : a.Plain crates where
  single_line address hs := Identifier.single_line_of_isValidAddress (h address hs)
  not_hex := by
    rintro _ address key hs rfl
    have hx := Identifier.x_mem_of_isValidAddress (h _ hs)
    exact absurd (crates.hex.mem_encode hx) (by decide)

theorem lines_signatureText (h : a.Plain crates) :
    lines (a.signatureText crates) =
      [("- " ++ a.shape.title).toList, (a.secondLine crates).toList] := by
  have hsecond : '\n' ∉ (a.secondLine crates).toList := by
    simp [secondLine, a.shape.label_single_line, h.display_single_line]
  rw [signatureText_eq, lines_append, lines_of_single a.shape.title_single_line,
    lines_of_single hsecond]
  rfl

theorem subject_kind (h : a.Plain crates) (h' : b.Plain crates) (hshape : a.shape = b.shape)
    (hdisplay : a.subject.display crates = b.subject.display crates) :
    a.subject.kind = b.subject.kind := by
  have hmixed : ∀ {a b : UnsignedAction}, a.Plain crates →
      (a.shape = .createInbox ∨ a.shape = .changeRecoveryAddress) →
      a.subject.display crates = b.subject.display crates →
      ∀ address p, a.subject = .ethereum address → b.subject = .passkey p → False := by
    intro a b ha hkind hdisplay address p hs ht
    rw [hs, ht] at hdisplay
    exact ha.not_hex hkind address p.key hs hdisplay.symm
  have hidentifier : ∀ i j : Identifier, a.subject = i.toMember → b.subject = j.toMember →
      (a.shape = .createInbox ∨ a.shape = .changeRecoveryAddress) →
      a.subject.kind = b.subject.kind := by
    intro i j hi hj hkind
    cases i with
    | ethereum address =>
      cases j with
      | ethereum address' => rw [hi, hj]; rfl
      | passkey p => exact (hmixed h hkind hdisplay address p hi hj).elim
    | passkey p =>
      cases j with
      | ethereum address =>
        exact (hmixed h' (hshape ▸ hkind) hdisplay.symm address p hj hi).elim
      | passkey q => rw [hi, hj]; rfl
  cases a with
  | createInbox a =>
    cases b with
    | createInbox b => exact hidentifier _ _ rfl rfl (.inl rfl)
    | _ => cases hshape
  | addAssociation a =>
    cases b with
    | addAssociation b => exact ActionShape.addAssociation.inj hshape
    | _ => cases hshape
  | revokeAssociation a =>
    cases b with
    | revokeAssociation b => exact ActionShape.revokeAssociation.inj hshape
    | _ => cases hshape
  | changeRecoveryAddress a =>
    cases b with
    | changeRecoveryAddress b => exact hidentifier _ _ rfl rfl (.inr rfl)
    | _ => cases hshape

theorem same (h : a.Plain crates) (h' : b.Plain crates)
    (hfirst : ("- " ++ a.shape.title).toList = ("- " ++ b.shape.title).toList)
    (hsecond : (a.secondLine crates).toList = (b.secondLine crates).toList) : a.Same b := by
  have hshape : a.shape = b.shape := by
    apply ActionShape.title_inj
    exact (String.append_right_inj _).mp (String.toList_inj.mp hfirst)
  have hdisplay : a.subject.display crates = b.subject.display crates := by
    have htext := String.toList_inj.mp hsecond
    rw [secondLine, secondLine, hshape] at htext
    exact (String.append_right_inj _).mp ((String.append_left_inj _).mp htext)
  exact ⟨hshape, MemberIdentifier.beq_of_display (h.subject_kind h' hshape hdisplay) hdisplay⟩

end Plain

def pairOfLines (crates : Crates) (a : UnsignedAction) : List (List Char) :=
  [("- " ++ a.shape.title).toList, (a.secondLine crates).toList]

theorem Plain.forall₂_same {as bs : List UnsignedAction} (has : ∀ a ∈ as, a.Plain crates)
    (hbs : ∀ b ∈ bs, b.Plain crates)
    (h : as.flatMap (pairOfLines crates) = bs.flatMap (pairOfLines crates)) :
    List.Forall₂ Same as bs := by
  induction as generalizing bs with
  | nil =>
    cases bs with
    | nil => exact .nil
    | cons b bs => cases h
  | cons a as ih =>
    cases bs with
    | nil => cases h
    | cons b bs =>
      obtain ⟨hfirst, h⟩ := List.cons.inj h
      obtain ⟨hsecond, h⟩ := List.cons.inj h
      apply List.Forall₂.cons
      · exact (has a List.mem_cons_self).same (hbs b List.mem_cons_self) hfirst hsecond
      · exact ih (fun x hx => has x (List.mem_cons_of_mem _ hx))
          (fun x hx => hbs x (List.mem_cons_of_mem _ hx)) h

theorem empty_notMem_flatMap (as : List UnsignedAction) :
    [] ∉ as.flatMap (pairOfLines crates) := by
  intro h
  obtain ⟨a, _, ha⟩ := List.mem_flatMap.mp h
  rcases List.mem_cons.mp ha with hfirst | hsecond
  · simp [String.toList_append] at hfirst
  · simp [secondLine, String.toList_append] at hsecond

end UnsignedAction

namespace UnsignedIdentityUpdate

variable {chrono : Chrono}

def actionsText (crates : Crates) (u : UnsignedIdentityUpdate) : String :=
  "\n".intercalate (u.actions.map fun action => action.signatureText crates)

def timeLine (chrono : Chrono) (u : UnsignedIdentityUpdate) : String :=
  "Current time: " ++ prettyTimestamp chrono u.clientTimestampNs

def body (crates : Crates) (chrono : Chrono) (u : UnsignedIdentityUpdate) : String :=
  u.inboxId ++ "\n" ++ u.timeLine chrono ++ "\n" ++ "" ++ "\n" ++ u.actionsText crates

theorem updateText_eq (inboxId time actions : String) :
    header ++ "\n\nInbox ID: " ++ inboxId ++ "\nCurrent time: " ++ time ++ "\n\n" ++ actions ++
        "\n\n" ++ footer =
      header ++ "\n\nInbox ID: " ++ (inboxId ++ "\n" ++ ("Current time: " ++ time) ++ "\n" ++ "" ++
        "\n" ++ actions) ++ ("\n\n" ++ footer) := by
  have htime : "\nCurrent time: " = "\n" ++ "Current time: " := by decide
  have hblank : "\n\n" = "\n" ++ ("" ++ "\n") := by decide
  rw [htime, hblank]
  simp only [String.append_assoc]

theorem signatureText_eq (u : UnsignedIdentityUpdate) :
    u.signatureText crates chrono =
      header ++ "\n\nInbox ID: " ++ u.body crates chrono ++ ("\n\n" ++ footer) :=
  updateText_eq _ _ _

theorem timeLine_single_line (u : UnsignedIdentityUpdate) : '\n' ∉ (u.timeLine chrono).toList := by
  have htime := chrono.single_line u.clientTimestampNs.toInt64
  simp [timeLine, prettyTimestamp, htime]

theorem lines_empty : lines "" = [[]] := rfl

theorem lines_body (u : UnsignedIdentityUpdate) :
    lines (u.body crates chrono) =
      lines u.inboxId ++ [(u.timeLine chrono).toList] ++ [[]] ++ lines (u.actionsText crates) := by
  rw [body, lines_append, lines_append, lines_append, lines_of_single u.timeLine_single_line,
    lines_empty]

theorem lines_actionsText {u : UnsignedIdentityUpdate} (h : ∀ a ∈ u.actions, a.Plain crates)
    (hne : u.actions ≠ []) :
    lines (u.actionsText crates) = u.actions.flatMap (UnsignedAction.pairOfLines crates) := by
  rw [actionsText, lines_intercalate (by simpa using hne), List.flatMap_map]
  apply List.flatMap_congr
  intro a ha
  exact (h a ha).lines_signatureText

/-- The lines of the text up to the blank one before the actions, and the lines of the actions:
an empty list of actions leaves one more blank line. -/
theorem exists_lines_body (chrono : Chrono) {u : UnsignedIdentityUpdate}
    (h : ∀ a ∈ u.actions, a.Plain crates) :
    ∃ before, lines (u.body crates chrono) =
        before ++ [] :: u.actions.flatMap (UnsignedAction.pairOfLines crates) ∧
      before = lines u.inboxId ++ (u.timeLine chrono).toList ::
        (if u.actions = [] then [[]] else []) := by
  refine ⟨_, ?_, rfl⟩
  rw [lines_body]
  by_cases hactions : u.actions = []
  · simp [actionsText, hactions, lines_empty]
  · rw [lines_actionsText h hactions]
    simp [hactions]

theorem signatureText_inj {u v : UnsignedIdentityUpdate} (hu : ∀ a ∈ u.actions, a.Plain crates)
    (hv : ∀ a ∈ v.actions, a.Plain crates)
    (h : u.signatureText crates chrono = v.signatureText crates chrono) :
    u.inboxId = v.inboxId ∧ List.Forall₂ UnsignedAction.Same u.actions v.actions := by
  rw [signatureText_eq, signatureText_eq] at h
  have hbody : u.body crates chrono = v.body crates chrono :=
    (String.append_right_inj _).mp ((String.append_left_inj _).mp h)
  obtain ⟨before, hlines, hbefore⟩ := exists_lines_body chrono hu
  obtain ⟨before', hlines', hbefore'⟩ := exists_lines_body chrono hv
  rw [hbody, hlines'] at hlines
  obtain ⟨hsame, hflat⟩ := append_cons_inj_of_notMem_right hlines.symm
    (UnsignedAction.empty_notMem_flatMap u.actions) (UnsignedAction.empty_notMem_flatMap v.actions)
  have hactions := UnsignedAction.Plain.forall₂_same hu hv hflat
  have hnil : u.actions = [] ↔ v.actions = [] := by
    rw [← List.length_eq_zero_iff, hactions.length_eq, List.length_eq_zero_iff]
  refine ⟨?_, hactions⟩
  rw [hbefore, hbefore', if_congr hnil rfl rfl] at hsame
  apply lines_inj.mp
  exact List.append_inj_left' hsame (by simp)

end UnsignedIdentityUpdate

/-- Among updates without line breaks in Ethereum identifiers, and without Ethereum accounts or
recovery identifiers that look like passkeys, the signed text binds the inbox and the actions. -/
theorem UnverifiedIdentityUpdate.signatureText_binds {Key : Type} (crates : Crates)
    (chrono : Chrono) {u v : UnverifiedIdentityUpdate Key} (hu : ∀ a ∈ u.unsigned.actions, a.Plain crates)
    (hv : ∀ a ∈ v.unsigned.actions, a.Plain crates)
    (h : u.signatureText crates chrono = v.signatureText crates chrono) :
    u.inboxId = v.inboxId ∧
      List.Forall₂ UnsignedAction.Same u.unsigned.actions v.unsigned.actions :=
  UnsignedIdentityUpdate.signatureText_inj hu hv h

namespace Sample

def ecdsa : Option Proto.Signature := some ⟨some (.erc191 ⟨[1]⟩)⟩

def creation (initialIdentifier : String) (kind : Proto.IdentifierKind) : Proto.IdentityUpdate :=
  ⟨[⟨some (.createInbox ⟨initialIdentifier, 0, ecdsa, kind.toI32, none⟩)⟩], 0, inboxId⟩

def revocation (address : String) : Proto.IdentityAction :=
  ⟨some (.revoke ⟨some ⟨some (.ethereumAddress address)⟩, ecdsa⟩)⟩

def recoveryChange (address : String) : Proto.IdentityAction :=
  ⟨some (.changeRecoveryAddress ⟨address, ecdsa, 1, none⟩)⟩

def foldedUpdate : Proto.IdentityUpdate :=
  ⟨[revocation "0x00)\n- Change inbox recovery address\n  (Address: 0x01"], 0, inboxId⟩

def unfoldedUpdate : Proto.IdentityUpdate :=
  ⟨[revocation "0x00", recoveryChange "0x01"], 0, inboxId⟩

end Sample

theorem UnverifiedIdentityUpdate.signatureText_binds_creation :
    ∃ u v : UnverifiedIdentityUpdate Bytes,
      tryFrom Sample.keys Sample.crates (Sample.creation
        "0x5aaeb6053f3e94c9b9a09f33669435e7ef1beaed" .unspecified) = .ok u ∧
      tryFrom Sample.keys Sample.crates (Sample.creation
        "0x5aaeb6053f3e94c9b9a09f33669435e7ef1beaed" .ethereum) = .ok v ∧
      u.inboxId = v.inboxId ∧
      List.Forall₂ UnsignedAction.Same u.unsigned.actions v.unsigned.actions := by
  refine ⟨_, _, rfl, rfl, signatureText_binds Sample.crates Sample.chrono ?_ ?_ rfl⟩
  all_goals
    intro a ha
    rw [List.mem_singleton.mp ha]
    apply UnsignedAction.Plain.of_isValidAddress
    rintro _ ⟨⟩
    decide

/-- Two pairs of updates that can be read have the same text: an account that is an address or a
passkey, and one revocation that reads as a revocation and a change of the recovery. -/
theorem UnverifiedIdentityUpdate.signatureText_ambiguous :
    (∃ u v : UnverifiedIdentityUpdate Bytes,
      tryFrom Sample.keys Sample.crates (Sample.creation "02ab" .ethereum) = .ok u ∧
      tryFrom Sample.keys Sample.crates (Sample.creation "02ab" .passkey) = .ok v ∧
      u.signatureText Sample.crates Sample.chrono = v.signatureText Sample.crates Sample.chrono ∧
      ¬List.Forall₂ UnsignedAction.Same u.unsigned.actions v.unsigned.actions) ∧
    ∃ u v : UnverifiedIdentityUpdate Bytes,
      tryFrom Sample.keys Sample.crates Sample.foldedUpdate = .ok u ∧
      tryFrom Sample.keys Sample.crates Sample.unfoldedUpdate = .ok v ∧
      u.signatureText Sample.crates Sample.chrono = v.signatureText Sample.crates Sample.chrono ∧
      ¬List.Forall₂ UnsignedAction.Same u.unsigned.actions v.unsigned.actions := by
  refine ⟨⟨_, _, rfl, rfl, by decide +kernel, ?_⟩, ⟨_, _, rfl, rfl, by decide +kernel, ?_⟩⟩
  · intro h
    cases h with
    | cons hsame _ => exact absurd hsame.2 (by decide)
  · intro h
    exact absurd h.length_eq (by decide)

end Text

end LibXmtp.Associations
