import LibXmtp.Types.GlobalCursor

universe u

namespace LibXmtp.D14n

open LibXmtp.Data LibXmtp.Types

structure GroupMessage where
  groupId : Bytes
  isCommit : Bool
  deriving DecidableEq

/-- What is extracted from an envelope. One that cannot be read is an error wherever it is
looked at, so only readable ones are considered. -/
class Envelope (E : Type u) where
  topic : E → Topic
  cursor : E → Cursor
  dependsOn : E → Option GlobalCursor
  timestamp : E → Option Int
  groupMessage : E → Option GroupMessage

export Envelope (topic cursor timestamp groupMessage)

variable {E : Type u} [Envelope E]

/-- `depends_on`, where an absent one asks for nothing. -/
def dependencies (e : E) : GlobalCursor := (Envelope.dependsOn e).getD default

def key (e : E) : Topic × Cursor := (topic e, cursor e)

structure Extracted where
  topic : Topic
  cursor : Cursor
  dependsOn : Option GlobalCursor
  timestamp : Option Int
  groupMessage : Option GroupMessage
  deriving DecidableEq

instance : Envelope Extracted where
  topic := Extracted.topic
  cursor := Extracted.cursor
  dependsOn := Extracted.dependsOn
  timestamp := Extracted.timestamp
  groupMessage := Extracted.groupMessage

def Extracted.message (sequenceId : Nat) (dependsOn : Option GlobalCursor) (timestamp : Int) : Extracted where
  topic := [0, 1]
  cursor := { sequenceId, originatorId := 10 }
  dependsOn
  timestamp := some timestamp
  groupMessage := some { groupId := [1], isCommit := false }

/-- An envelope whose dependencies have not been seen yet, with what is known of it. -/
structure OrphanedEnvelope (E : Type u) [Envelope E] where
  cursor : Cursor
  dependsOn : GlobalCursor
  payload : E
  groupId : Bytes
  cursor_eq : Envelope.cursor payload = cursor
  dependsOn_eq : dependencies payload = dependsOn
  groupId_eq : (groupMessage payload).map GroupMessage.groupId = some groupId

namespace OrphanedEnvelope

def isChildOf (o : OrphanedEnvelope E) (cursor : Cursor) : Bool :=
  o.dependsOn.inner.contains cursor.originatorId &&
    o.dependsOn.get cursor.originatorId == cursor.sequenceId

theorem isChildOf_iff {o : OrphanedEnvelope E} {a : Cursor} :
    o.isChildOf a = true ↔ a ∈ o.dependsOn.cursors := by
  rw [GlobalCursor.mem_cursors, isChildOf, Bool.and_eq_true, Std.ExtTreeMap.contains_iff_mem,
    Std.ExtTreeMap.mem_iff_isSome_getElem?, beq_iff_eq, GlobalCursor.get,
    Std.ExtTreeMap.getD_eq_getD_getElem?]
  cases o.dependsOn.inner[a.originatorId]? <;> simp

end OrphanedEnvelope

inductive EnvelopeError
  | missing (item : String)

def orphan (e : E) : Except EnvelopeError (OrphanedEnvelope E) :=
  match h : groupMessage e with
  | some message => .ok {
      cursor := cursor e
      dependsOn := dependencies e
      payload := e
      groupId := message.groupId
      cursor_eq := rfl
      dependsOn_eq := rfl
      groupId_eq := by rw [h]; rfl }
  | none => .error (.missing "group_message")

theorem payload_of_orphan {e : E} {o : OrphanedEnvelope E} (h : orphan e = .ok o) :
    o.payload = e := by
  unfold orphan at h
  split at h
  · cases h
    rfl
  · cases h

structure RequiredDependency where
  neededBy : Cursor
  topic : Topic
  cursor : Cursor
  deriving DecidableEq

end LibXmtp.D14n

namespace LibXmtp.Types.TopicCursor

open LibXmtp.D14n

variable {E : Type u} [Envelope E]

def applyEnvelope (c : TopicCursor) (e : E) : TopicCursor := c.apply (topic e) (cursor e)

def ready (c : TopicCursor) (e : E) : Bool := (c.clock (topic e)).dominates (dependencies e)

@[simp] theorem ready_insertDefault (c : TopicCursor) (t : Topic) :
    ((c.insertDefault t).ready : E → Bool) = c.ready := by
  funext e
  simp [ready]

theorem ready_eq_of_clock_eq {c d : TopicCursor} (h : ∀ t, c.clock t = d.clock t) :
    (c.ready : E → Bool) = d.ready := by
  funext e
  simp [ready, h]

@[simp] theorem clock_applyEnvelope (c : TopicCursor) (e : E) (t : Topic) :
    (c.applyEnvelope e).clock t =
      if topic e = t then (c.clock t).apply (cursor e) else c.clock t := TopicCursor.clock_apply

@[simp] theorem mem_applyEnvelope (c : TopicCursor) (e : E) (t : Topic) :
    t ∈ (c.applyEnvelope e).inner ↔ topic e = t ∨ t ∈ c.inner := TopicCursor.mem_apply

def seen (c : TopicCursor) (t : Topic) (o : Nat) : Nat := (c.clock t).get o

@[simp] theorem seen_insertDefault (c : TopicCursor) (t u : Topic) (o : Nat) :
    (c.insertDefault t).seen u o = c.seen u o := by simp [seen]

theorem seen_applyEnvelope (c : TopicCursor) (e : E) (t : Topic) (o : Nat) :
    (c.applyEnvelope e).seen t o =
      if topic e = t ∧ (cursor e).originatorId = o then max (c.seen t o) (cursor e).sequenceId
      else c.seen t o := by
  simp only [seen, clock_applyEnvelope]
  by_cases h : topic e = t <;> simp [h]

theorem seen_le_applyEnvelope (c : TopicCursor) (e : E) (t : Topic) (o : Nat) :
    c.seen t o ≤ (c.applyEnvelope e).seen t o := by
  rw [seen_applyEnvelope]
  split <;> omega

theorem ready_iff (c : TopicCursor) (e : E) :
    c.ready e = true ↔ ∀ o, (dependencies e).get o ≤ c.seen (topic e) o :=
  GlobalCursor.dominates_iff

theorem ready_eq_of_seen_eq {c d : TopicCursor} (h : ∀ t o, c.seen t o = d.seen t o) :
    (c.ready : E → Bool) = d.ready := by
  funext e
  rw [Bool.eq_iff_iff, ready_iff, ready_iff]
  simp [h]

theorem mem_missing_clock {c : TopicCursor} {e : E} {a : Cursor} :
    a ∈ (c.clock (topic e)).missing (dependencies e) ↔
      (dependencies e).get a.originatorId = a.sequenceId ∧
        c.seen (topic e) a.originatorId < a.sequenceId := GlobalCursor.mem_missing

theorem ready_of_le {c d : TopicCursor} {e : E}
    (hle : ∀ o, (c.clock (topic e)).get o ≤ (d.clock (topic e)).get o) (h : c.ready e = true) :
    d.ready e = true := GlobalCursor.dominates_of_le hle h

end LibXmtp.Types.TopicCursor
