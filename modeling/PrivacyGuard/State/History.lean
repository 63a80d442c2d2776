import PrivacyGuard.State.Basic

/-! # Histories of completed calls

What a list of completed calls, newest first, says about connections and
failures. These definitions read the calls and their replies only, never a
state of the program.
-/

namespace PrivacyGuard.History

def enabled : List Event → Bool
  | [] => true
  | (.setEnabled b, _) :: _ => b
  | _ :: h => enabled h

def rearms (e : Event) (h : List Event) : Bool :=
  decide (e.1 = .setEnabled true) && !enabled h

/-- The calls after the last transition from disabled to enabled. -/
def sinceRearm : List Event → List Event
  | [] => []
  | e :: h => if rearms e h then [] else e :: sinceRearm h

def acceptedState (id : ℕ) : Event → Option Bool
  | (.stateReceived i _ flag _, .accepted true) => if i = id then some flag else none
  | _ => none

def acceptsState : Event → Bool
  | (.stateReceived _ _ _ _, .accepted true) => true
  | _ => false

def acceptedHello (id : ℕ) : Event → Bool
  | (.helloReceived i _ _, .accepted true) => decide (i = id)
  | _ => false

/-- The time of a call that shows the connection alive: its opening, HELLO or STATE. -/
def refreshes (id : ℕ) : Event → Option ℤ
  | (.connectionOpened now, .opened i) => if i = id then some now else none
  | (.helloReceived i _ now, .accepted true) => if i = id then some now else none
  | (.stateReceived i _ _ now, .accepted true) => if i = id then some now else none
  | _ => none

def greeted (id : ℕ) (h : List Event) : Bool := h.any (acceptedHello id)

def lastFlag (id : ℕ) (h : List Event) : Option Bool :=
  h.findSome? (acceptedState id)

def published (id : ℕ) (h : List Event) : Bool :=
  (sinceRearm h).any fun e => (acceptedState id e).isSome

def lastSeen (id : ℕ) (h : List Event) : Option ℤ :=
  h.findSome? (refreshes id)

def stale (timeout : ℤ) (now : ℤ) (h : List Event) (id : ℕ) : Bool :=
  match lastSeen id h with
  | some seen => decide (now - seen > timeout)
  | none => false

variable (timeout : ℤ)

/-- Connections opened and not yet removed by an accepted GOODBYE, a failure or a tick. -/
def live : List Event → List ℕ
  | [] => []
  | (.connectionOpened _, .opened id) :: h => id :: live h
  | (.goodbyeReceived id, .accepted true) :: h => (live h).filter (· ≠ id)
  | (.protocolError id, _) :: h => (live h).filter (· ≠ id)
  | (.connectionClosed id, _) :: h => (live h).filter (· ≠ id)
  | (.tick now, _) :: h => (live h).filter fun id => !stale timeout now h id
  | _ :: h => live h

/-- The connections that fail at a call made after the given history. -/
def failures (e : Event) (h : List Event) : List ℕ :=
  match e.1 with
  | .protocolError id => if id ∈ live timeout h then [id] else []
  | .connectionClosed id => if id ∈ live timeout h then [id] else []
  | .tick now => (live timeout h).filter (stale timeout now h)
  | _ => []

/-- The call is the first accepted STATE of its connection since the last re-arming. -/
def firstState : Event → List Event → Bool
  | (.stateReceived id _ _ _, .accepted true), h => !published id h
  | _, _ => false

/-- Failures of published connections since the last re-arming, less the recoveries. -/
def ledger : List Event → ℕ
  | [] => 0
  | e :: h =>
    if rearms e h then 0
    else ledger h + (failures timeout e h).countP (published · h)
      - (if firstState e h then 1 else 0)

/-- Since the last re-arming, a connection that had not published failed and no STATE of
any connection was accepted later. -/
def unanswered : List Event → Bool
  | [] => false
  | e :: h =>
    if rearms e h then false
    else if acceptsState e then false
    else unanswered h || (failures timeout e h).any fun id => !published id h

/-- The history leaves nothing uncertain and every live connection reported safe last. -/
structure AllSafe (h : List Event) : Prop where
  enabled : enabled h = true
  nonempty : live timeout h ≠ []
  ready : ∀ id ∈ live timeout h,
    greeted id h = true ∧ published id h = true ∧ lastFlag id h = some false
  answered : unanswered timeout h = false
  settled : ledger timeout h = 0

/-! ### One more call -/

section Cons

variable {timeout} {id : ℕ} {e : Event} {h : List Event}

theorem greeted_cons : greeted id (e :: h) = (acceptedHello id e || greeted id h) := rfl

theorem lastFlag_cons : lastFlag id (e :: h) = (acceptedState id e).or (lastFlag id h) := by
  rw [lastFlag, List.findSome?_cons]; cases acceptedState id e <;> rfl

theorem lastSeen_cons : lastSeen id (e :: h) = (refreshes id e).or (lastSeen id h) := by
  rw [lastSeen, List.findSome?_cons]; cases refreshes id e <;> rfl

theorem published_cons :
    published id (e :: h) =
      (!rearms e h && ((acceptedState id e).isSome || published id h)) := by
  rw [published, sinceRearm]
  cases rearms e h <;> rfl

theorem rearms_eq_false (he : e.1 ≠ .setEnabled true) : rearms e h = false := by
  simp [rearms, he]

theorem sinceRearm_subset : ∀ h : List Event, sinceRearm h ⊆ h
  | [] => List.Subset.refl _
  | e :: h => by
    rw [sinceRearm]
    split
    · exact List.nil_subset _
    · exact List.cons_subset_cons _ (sinceRearm_subset h)

end Cons

end PrivacyGuard.History
