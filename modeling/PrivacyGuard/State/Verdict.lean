import PrivacyGuard.State.Cadence
import PrivacyGuard.State.Simulation

/-! # The verdict of a history

All five modes read off the completed calls. What is uncertain about a failure comes before
what is uncertain about a live connection, and both before what the connections report.
-/

namespace PrivacyGuard

namespace History

variable (timeout : ℤ) (h : List Event)

/-- The connection has said who it is, and what it shows since the last re-arming. -/
def ready (id : ℕ) : Bool := greeted id h && published id h

def failed : Bool := unanswered timeout h || decide (0 < ledger timeout h)

def showsSensitive : Bool := (live timeout h).any fun id => lastFlag id h == some true

def verdict : Mode :=
  if !enabled h then .disabled
  else if failed timeout h then .disconnected
  else if live timeout h = [] ∨ ¬ (live timeout h).all (ready h) then .awaitingConnection
  else if showsSensitive timeout h then .sensitive
  else .safe

end History

open History

variable {timeout : ℤ} {n : ℕ} {h : List Event} {s : PrivacyState}

namespace Represents

theorem describes_entry (hr : Represents timeout n h s) {e : Entry} (he : e ∈ s.clients.entries) :
    Describes h e.1 e.2 :=
  hr.client e.1 e.2 (AList.mem_entries_iff.mp he)

theorem forall_live_iff (hr : Represents timeout n h s) {P : ℕ → Prop} :
    (∀ id ∈ live timeout h, P id) ↔ ∀ e ∈ s.clients.entries, P e.1 := by
  rw [← hr.keys]
  exact List.forall_mem_map

theorem all_ready (hr : Represents timeout n h s) :
    (s.clients.entries.all fun e => e.2.helloReceived && e.2.sensitive.isSome) =
      (live timeout h).all (ready h) := by
  rw [Bool.eq_iff_iff, List.all_eq_true, List.all_eq_true, hr.forall_live_iff]
  refine forall₂_congr fun e he => ?_
  have hd := hr.describes_entry he
  rw [hd.greeted, hd.isSome, ready]

/-- Where all are ready, a recorded flag is the last one reported. -/
theorem any_sensitive (hr : Represents timeout n h s)
    (hready : (live timeout h).all (ready h) = true) :
    (s.clients.entries.any fun e => e.2.sensitive == some true) = showsSensitive timeout h := by
  rw [List.all_eq_true, hr.forall_live_iff] at hready
  rw [showsSensitive, Bool.eq_iff_iff, ← not_iff_not, Bool.not_eq_true, Bool.not_eq_true,
    List.any_eq_false, List.any_eq_false, hr.forall_live_iff]
  refine forall₂_congr fun e he => ?_
  have hpublished : published e.1 h = true := (Bool.and_eq_true_iff.mp (hready e he)).2
  rw [(hr.describes_entry he).flag, hpublished, if_pos rfl]

theorem entries_isEmpty (hr : Represents timeout n h s) :
    s.clients.entries.isEmpty = true ↔ live timeout h = [] := by
  rw [← hr.keys, List.isEmpty_iff]
  exact List.map_eq_nil_iff.symm

theorem mode_eq (hr : Represents timeout n h s) : s.mode = verdict timeout h := by
  have hfailed : (s.untrustedFailureLatched || decide (0 < s.disconnectedClients)) =
      failed timeout h := by
    rw [hr.latched, hr.count, failed]
  rw [PrivacyState.mode, verdict, hr.enabled_eq, hfailed, PrivacyState.aggregate_eq, hr.all_ready]
  cases hready : (live timeout h).all (ready h) with
  | false => simp
  | true => simp [hr.entries_isEmpty, hr.any_sensitive hready]

end Represents

/-- Every run leaves the mode that its history deserves. -/
theorem mode_eq_verdict (timeout : ℤ) (ops : List Op) (hn : openings ops < wordSize) :
    (PrivacyState.exec timeout ops).1.mode = verdict timeout (PrivacyState.exec timeout ops).2 :=
  (Represents.exec timeout ops hn).mode_eq

theorem mode_eq_verdict_silent :
    verdict 2000 (PrivacyState.exec 2000
      [.connectionOpened 0, .helloReceived 1 [97] 0, .stateReceived 1 1 true 0,
        .connectionOpened 10, .helloReceived 2 [98] 10, .stateReceived 2 1 false 1500,
        .tick 2001]).2 = .disconnected :=
  (mode_eq_verdict 2000 _ (by decide)).symm.trans (by decide)

end PrivacyGuard
