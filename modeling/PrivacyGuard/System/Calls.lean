import PrivacyGuard.System.Broadcast

/-! # The calls of a step

Every step of the windows, the server, the callback and the display leaves the privacy state
alone or performs one call on it.
-/

namespace PrivacyGuard

open Utf16

/-- The call switches protection on or off. -/
def PrivacyState.switches (s : PrivacyState) : Op → Bool
  | .setEnabled enabled => decide (enabled ≠ s.enabled)
  | _ => false

theorem PrivacyState.perform_enabled_of_switches {s : PrivacyState} {op : Op}
    (h : s.switches op = false) : (s.perform op).1.enabled = s.enabled := by
  rw [perform_enabled]
  cases op with
  | setEnabled enabled => simpa [switches] using h
  | _ => rfl

namespace Server

variable {s t : Server}

structure Performs (s t : Server) (op : Op) : Prop where
  privacyState : t.privacyState = (s.privacyState.perform op).1
  log : t.log = .of s.privacyState op :: s.log

structure Silent (s t : Server) : Prop where
  privacyState : t.privacyState = s.privacyState
  log : t.log = s.log

/-- The call of a step opens as many connections as the step. -/
def Calls (s t : Server) (n : ℕ) (switches : Prop) : Prop :=
  Silent s t ∨ ∃ op, opens op = n ∧ (s.privacyState.switches op = true → switches) ∧
    Performs s t op

theorem Calls.imp {n : ℕ} {switches switches' : Prop} (h : Calls s t n switches)
    (himp : switches → switches') : Calls s t n switches' := by
  rcases h with hsilent | ⟨op, hopens, hop, hperforms⟩
  · exact .inl hsilent
  · exact .inr ⟨op, hopens, fun h => himp (hop h), hperforms⟩

theorem silent_of_move {slot : ℕ} {input : Input} (hs : s.move slot input = some t) :
    Silent s t := by
  unfold move at hs
  split at hs
  case h_1 id w hworker =>
    obtain ⟨w', -, rfl⟩ := Option.map_eq_some_iff.mp hs
    exact ⟨rfl, rfl⟩
  case h_2 => cases hs

theorem calls_of_step {label : Label} (hs : s.step label = some t) :
    Calls s t label.opens (∃ enabled, label = .setEnabled enabled ∧
      s.privacyState.switches (.setEnabled enabled) = true) := by
  cases label with
  | accept now =>
    obtain ⟨-, hs⟩ := Option.ite_none_right_eq_some.mp hs
    obtain rfl := Option.some.inj hs
    exact .inr ⟨.connectionOpened now, rfl, by simp [PrivacyState.switches], rfl, rfl⟩
  | call slot now =>
    simp only [Server.step] at hs
    split at hs
    case h_2 => cases hs
    case h_1 id w hworker =>
      split at hs
      case h_2 => cases hs
      case h_1 call hcall =>
        obtain ⟨hstate, hlog⟩ := silent_of_move hs
        refine .inr ⟨call.op id now, ?_, ?_, hstate, hlog⟩
        all_goals cases call <;>
          simp [Call.op, PrivacyGuard.opens, Label.opens, PrivacyState.switches]
  | tick now =>
    obtain rfl := Option.some.inj hs
    exact .inr ⟨.tick now, rfl, by simp [PrivacyState.switches], rfl, rfl⟩
  | setEnabled enabled =>
    obtain rfl := Option.some.inj hs
    exact .inr ⟨.setEnabled enabled, rfl, fun h => ⟨enabled, rfl, h⟩, rfl, rfl⟩
  | stop =>
    obtain rfl := Option.some.inj hs
    exact .inl ⟨rfl, rfl⟩
  | _ => exact .inl (silent_of_move hs)

end Server

open Server (Calls)

/-! ### Steps of the system -/

namespace System

def switches (s : System) : Label → Bool
  | .server (.setEnabled enabled) => s.server.privacyState.switches (.setEnabled enabled)
  | _ => false

theorem server_step {s t : System} {label : Label} (hs : s.step label = some t) :
    t.server = s.server ∨ ∃ l : Server.Label, l.opens = label.opens ∧
      (∀ enabled, l = .setEnabled enabled → label = .server l) ∧
      (l = .stop → label = .server l) ∧ s.server.step l = some t.server := by
  cases label with
  | client i event =>
    simp only [System.step] at hs
    split at hs
    case h_2 => cases hs
    case h_1 c hc =>
      obtain ⟨c', -, rfl⟩ := Option.map_eq_some_iff.mp hs
      exact .inl rfl
  | accept i k now =>
    simp only [System.step] at hs
    split at hs
    case h_2 => cases hs
    case h_1 c hc =>
      obtain ⟨-, hs⟩ := Option.ite_none_right_eq_some.mp hs
      obtain ⟨server, hserver, rfl⟩ := Option.map_eq_some_iff.mp hs
      exact .inr ⟨.accept now, rfl, by simp, by simp, hserver⟩
  | read slot length =>
    simp only [System.step] at hs
    split at hs
    case h_2 => cases hs
    case h_1 channel hchannel =>
      obtain ⟨server, hserver, rfl⟩ := Option.map_eq_some_iff.mp hs
      exact .inr ⟨_, rfl, by simp, by simp, hserver⟩
  | server label =>
    have hmap : (s.server.step label).map (fun server => { s with server }) = some t ∧
        label.opens = 0 := by
      cases label with
      | accept now => cases hs
      | bytes slot chunk => cases hs
      | _ => exact ⟨hs, rfl⟩
    obtain ⟨server, hserver, rfl⟩ := Option.map_eq_some_iff.mp hmap.1
    exact .inr ⟨label, hmap.2, fun _ _ => rfl, fun _ => rfl, hserver⟩

theorem calls_of_step {s t : System} {label : Label} (hs : s.step label = some t) :
    Calls s.server t.server label.opens (s.switches label = true) := by
  rcases server_step hs with hsame | ⟨l, hopens, hswitches, -, hserver⟩
  · exact .inl ⟨by rw [hsame], by rw [hsame]⟩
  · rw [← hopens]
    refine (Server.calls_of_step hserver).imp ?_
    rintro ⟨enabled, rfl, hswitched⟩
    rw [hswitches enabled rfl]
    exact hswitched

end System

namespace Broadcast

variable {d : CaseData} {b b' : Broadcast}

def switches (b : Broadcast) : Label → Bool
  | .system label => b.system.switches label
  | _ => false

theorem calls_of_step {label : Label} (hs : b.step d label = some b') :
    Calls b.server b'.server label.opens (b.switches label = true) := by
  cases moves_of_step hs with
  | window hi hw => exact .inl ⟨rfl, rfl⟩
  | system hl ht => exact System.calls_of_step ht
  | tick hp now => exact .inr ⟨.tick now, rfl, by simp [PrivacyState.switches], rfl, rfl⟩
  | mode hp => exact .inl ⟨rfl, rfl⟩
  | forward hp => exact .inl ⟨rfl, rfl⟩
  | display hlogged hstep => exact .inl ⟨rfl, rfl⟩

end Broadcast

end PrivacyGuard
