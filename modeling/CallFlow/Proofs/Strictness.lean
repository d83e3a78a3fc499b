import CallFlow.Proofs.Compiling
import CallFlow.Proofs.Declared

/-!
# Strict and Lenient Compilations

A strict compilation refuses a connection that a lenient one drops, and this is the only
difference between them. The two runs are the same up to the first connection that is lost:
there the strict run fails and names it, while the lenient run records it first of all and goes
on.

## Sections

1. Assemblies made strict
2. Runs side by side
3. Strict and lenient compilations agree
-/

namespace CallFlow

open Attempt

namespace Assembly

/-! ## §1 Assemblies made strict -/

/-- The assembly with the given strictness. -/
def withStrict (a : Assembly) (strict : Bool) : Assembly := { a with strict }

variable (a : Assembly) (strict : Bool)

theorem hold_withStrict (id : String) (c : Compiled) :
    (a.withStrict strict).hold id c = (a.hold id c).withStrict strict := by
  cases hnode : c.node with
  | none => simp [hold, hnode]
  | some node => by_cases hid : id = a.startNodeId <;> simp [hold, hnode, hid, withStrict]

theorem holdAll_withStrict (compiled : List (Step × Compiled)) :
    (a.withStrict strict).holdAll compiled = (a.holdAll compiled).withStrict strict := by
  induction compiled generalizing a with
  | nil => rfl
  | cons q rest ih =>
    show ((a.withStrict strict).hold q.1.id q.2).holdAll rest = _
    rw [hold_withStrict, ih]
    rfl

theorem addGiven_withStrict (id : String) (e : Edge) :
    (a.withStrict strict).addGiven id e = (a.addGiven id e).withStrict strict := by
  unfold addGiven
  cases id.isEmpty <;> rfl

theorem enter_withStrict (entry : Option String) :
    (a.withStrict strict).enter entry = (a.enter entry).withStrict strict := by
  cases entry with
  | none => rfl
  | some id =>
    have hnodes : (a.withStrict strict).nodes = a.nodes := rfl
    simp only [enter, addGiven_withStrict, hnodes]
    cases Table.has a.nodes id <;> rfl

/-- Strictness has no say in which connections are lost. -/
theorem lost?_withStrict : (a.withStrict strict).lost? = a.lost? := rfl

theorem place_withStrict (c : Flow.Connection) :
    (a.withStrict strict).place c = (a.place c).withStrict strict := by
  unfold place
  rw [lost?_withStrict]
  cases a.lost? c <;> rfl

theorem placeAll_withStrict (cs : List Flow.Connection) :
    (a.withStrict strict).placeAll cs = (a.placeAll cs).withStrict strict := by
  induction cs generalizing a with
  | nil => rfl
  | cons c rest ih => rw [placeAll_cons, place_withStrict, ih, placeAll_cons]

end Assembly

/-! ## §2 Runs side by side -/

/-- The settings with the given strictness. -/
def Settings.withStrict (s : Settings) (strict : Bool) : Settings :=
  { s with strictDanglingEdges := strict }

namespace Flow

variable {f : Flow}

namespace Passes

variable (p : Passes f) (s : Settings)

/-- The runs begin with the same assembly. -/
theorem entered_withStrict (strict : Bool) :
    p.entered (s.withStrict strict) = (p.entered s).withStrict strict := by
  have hbegin : Assembly.ofSettings (s.withStrict strict) =
      (Assembly.ofSettings s).withStrict strict := rfl
  rw [entered, held, hbegin, Assembly.holdAll_withStrict, Assembly.enter_withStrict]
  rfl

/-- If every connection is let through, strictness has no say in the result. -/
theorem result_withStrict (strict : Bool) : p.result (s.withStrict strict) = p.result s := by
  rw [result, entered_withStrict, Assembly.placeAll_withStrict]
  rfl

/-- **What a strict compilation comes to can be read off a lenient result**: the first connection
that is dropped there is the failure here. -/
theorem outcome_compile_strict (hne : f.steps.isEmpty = false) :
    (f.compile (s.withStrict true)).outcome =
      match (p.result s).dropped with
      | [] => .ok (p.result s)
      | d :: _ => .error (.danglingLink d.linkId d.source d.target d.reason) := by
  -- The strict run stops where the lenient one records its first loss.
  have hfirst : p.plan.findSome? (p.entered (s.withStrict true)).lost? =
      (p.result s).dropped.head? := by
    rw [p.dropped_eq_filterMap, List.head?_filterMap, entered_withStrict, Assembly.lost?_withStrict]
  rw [outcome_compile hne, p.outcome_assemble, Assembly.outcome_foldlM_connectOne_strict
    (p.entered_strict _), hfirst]
  cases (p.result s).dropped with
  | cons d rest => rfl
  | nil =>
    show Except.ok (p.result (s.withStrict true)) = _
    rw [result_withStrict]

end Passes

/-! ## §3 Strict and lenient compilations agree -/

/-- **Strict and lenient compilations agree.** A lenient result without dropped connections is
the strict result too; otherwise the strict compilation fails with a message about the first
dropped connection. A strict result never has dropped connections. -/
theorem strict_agrees_with_lenient (f : Flow) (s : Settings) :
    (∀ r, (f.compile (s.withStrict false)).Gives r →
      (r.dropped = [] → (f.compile (s.withStrict true)).Gives r) ∧
      ∀ d rest, r.dropped = d :: rest →
        ∃ e, (f.compile (s.withStrict true)).outcome = .error e ∧
          e = .danglingLink d.linkId d.source d.target d.reason ∧
          e.message = "Edge " ++
            (if (d.linkId.getD "").isEmpty then "?" else d.linkId.getD "") ++
            " (" ++ d.source ++ " -> " ++ d.target ++ ") " ++ d.reason.text) ∧
    ∀ r, (f.compile (s.withStrict true)).Gives r → r.dropped = [] := by
  refine ⟨fun r hr => ?_, fun r hr => ?_⟩
  · obtain ⟨hne, p, hp⟩ := Passes.of_gives _ hr
    have hstrict := p.outcome_compile_strict (s.withStrict false) hne
    rw [← hp] at hstrict
    refine ⟨fun hnone => ?_, fun d rest hsome => ?_⟩
    · -- Nothing is lost, so the strict run goes through.
      rw [hnone] at hstrict
      exact hstrict
    · rw [hsome] at hstrict
      exact ⟨_, hstrict, rfl, rfl⟩
  · obtain ⟨hne, p, hp⟩ := Passes.of_gives _ hr
    have hstrict := p.outcome_compile_strict (s.withStrict true) hne
    rw [← hp] at hstrict
    -- A strict run that fails gives nothing, so nothing was dropped.
    cases hdropped : r.dropped with
    | nil => rfl
    | cons d rest =>
      rw [hdropped] at hstrict
      exact absurd (hstrict.symm.trans hr) nofun

/-- On the crossroads, the way that leads nowhere is dropped or refused. -/
theorem strict_agrees_with_lenient_crossroads :
    ∃ r d rest, (crossroads.compile (Settings.withStrict {} false)).Gives r ∧
      r.dropped = d :: rest ∧ ∃ e,
        (crossroads.compile (Settings.withStrict {} true)).outcome = .error e ∧
          e.message = "Edge e2 (a -> nowhere) target node was not compiled" := by
  obtain ⟨r, hr⟩ := gives_of_succeeds (a := crossroads.compile (Settings.withStrict {} false))
    (by decide +kernel)
  have hdropped : (crossroads.compile (Settings.withStrict {} false)).outcome.map
      Compilation.dropped = .ok [⟨some "e2", "a", "nowhere", .targetMissing⟩] := by
    decide +kernel
  rw [hr] at hdropped
  have hfirst : r.dropped = [⟨some "e2", "a", "nowhere", .targetMissing⟩] :=
    Except.ok.inj hdropped
  obtain ⟨e, he, -, hmessage⟩ :=
    ((strict_agrees_with_lenient crossroads {}).1 r hr).2 _ _ hfirst
  exact ⟨r, _, _, hr, hfirst, e, he, hmessage.trans (by decide +kernel)⟩

end Flow

end CallFlow
