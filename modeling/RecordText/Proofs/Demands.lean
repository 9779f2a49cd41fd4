/-
What a renderer asks for.

`Renderer.renderWith` does not say how demands are met, so it can be run with a log of them
(`Demand.logged`).  Keeping the log changes nothing in what is written (`render_logged`), and the
log is known beforehand (`Renderer.demands_eq`): step by step, the member of the part and then the
call of its substitute, up to the first thing that fails.

* `Logged`, `Demand.logged` — computations with a log, and a demand that is logged and met;
* `Traces` — a computation gives a result and adds certain demands to the log;
* `Renderer.demands` — the log of a rendering.
-/
import RecordText.Proofs.Outcome

namespace RecordText

/-- Computations that keep a log of demands, whether they fail or not. -/
abbrev Logged := ExceptT Failure (StateM (List Demand))

/-- Logs a demand and meets it for the record `x`. -/
def Demand.logged (B : Behaviour) (x : Value) (d : Demand) : Logged Value := do
  modify (· ++ [d])
  liftM (d.answer B x)

/-- What is asked for after a step: nothing when the step fails. -/
def after {α : Type} (r : Except Failure α) (k : α → List Demand) : List Demand :=
  match r with
  | .ok a => k a
  | .error _ => []

@[simp] theorem after_ok {α : Type} (a : α) (k : α → List Demand) : after (.ok a) k = k a := rfl

@[simp] theorem after_error {α : Type} (e : Failure) (k : α → List Demand) :
    after (.error e) k = [] := rfl

@[simp] theorem after_nil {α : Type} (r : Except Failure α) : after r (fun _ => []) = [] := by
  cases r <;> rfl

/-- A computation ends with `r` and adds `ds` to the log. -/
def Traces {α : Type} (c : Logged α) (r : Except Failure α) (ds : List Demand) : Prop :=
  ∀ log, c.run.run log = (r, log ++ ds)

namespace Traces

variable {α β : Type}

theorem pure (a : α) : Traces (Pure.pure a) (.ok a) [] := fun log => by
  rw [List.append_nil]
  rfl

theorem lift (r : Except Failure α) : Traces (liftM r) r [] := fun log => by
  rw [List.append_nil]
  rfl

theorem demand (B : Behaviour) (x : Value) (d : Demand) :
    Traces (d.logged B x) (d.answer B x) [d] := fun _ => rfl

/-- The second computation runs, and adds to the log, only when the first one succeeds. -/
theorem bind {c : Logged α} {f : α → Logged β} {r : Except Failure α}
    {g : α → Except Failure β} {ds : List Demand} {k : α → List Demand}
    (hc : Traces c r ds) (hf : ∀ a, Traces (f a) (g a) (k a)) :
    Traces (c >>= f) (r >>= g) (ds ++ after r k) := fun log => by
  rw [ExceptT.run_bind]
  show StateT.run (c.run >>= _) log = _
  rw [StateT.run_bind, hc log]
  cases r with
  | error e =>
    -- the second computation never starts
    rw [after_error, List.append_nil]
    rfl
  | ok a =>
    show (f a).run.run (log ++ ds) = _
    rw [hf a, after_ok, List.append_assoc]
    rfl

end Traces

/-! ### Parts, steps, renderers -/

/-- What reading a part asks for. -/
def Part.demands (B : Behaviour) (x : Value) : Part → List Demand
  | .base m => [.member m]
  | .substituted m f _ => .member m :: after (m.read B x) fun v => [.call f v]

theorem traces_part (B : Behaviour) (x : Value) (p : Part) :
    Traces (p.readWith B (Demand.logged B x)) (p.read B x) (p.demands B x) := by
  cases p with
  | base m => exact Traces.demand B x (.member m)
  | substituted m f t =>
    -- what the substitute returns is made a text without asking for anything
    have h := (Traces.demand B x (.member m)).bind fun v =>
      (Traces.demand B x (.call f v)).bind fun w =>
        (Traces.lift (Part.substituteText B w)).bind fun s => Traces.pure (Value.text s)
    simp only [after_nil, List.append_nil] at h
    exact h

theorem traces_step (B : Behaviour) (x : Value) (s : Step) :
    Traces (s.fragmentWith B (Demand.logged B x)) (s.fragment B x) (s.part.demands B x) := by
  have h := (traces_part B x s.part).bind fun v => Traces.lift (s.writer.write B v)
  simp only [after_nil, List.append_nil] at h
  exact h

/-- What several steps ask for: a step that fails is the last one. -/
def demandsOf (B : Behaviour) (x : Value) : List Step → List Demand
  | [] => []
  | s :: ss => s.part.demands B x ++ after (s.fragment B x) fun _ => demandsOf B x ss

theorem traces_steps (B : Behaviour) (x : Value) (ss : List Step) :
    Traces (Renderer.partsWith B (Demand.logged B x) ss)
      (Renderer.partsWith B (Demand.answer B x) ss) (demandsOf B x ss) := by
  induction ss with
  | nil => exact Traces.pure _
  | cons s ss ih =>
    have h := (traces_step B x s).bind fun v =>
      ih.bind fun vs => Traces.pure (Value.text s.lead :: v :: vs)
    simp only [after_nil, List.append_nil] at h
    exact h

namespace Renderer

/-- The steps of a renderer. -/
def stepList : Renderer → List Step
  | .constant _ => []
  | .steps ss _ => ss

/-- What a rendering asks for, in order. -/
def demands (B : Behaviour) (r : Renderer) (x : Value) : List Demand :=
  ((r.renderWith B (Demand.logged B x)).run.run []).2

theorem traces_render (B : Behaviour) (x : Value) (r : Renderer) :
    Traces (r.renderWith B (Demand.logged B x)) (r.render B x) (demandsOf B x r.stepList) := by
  cases r with
  | constant t => exact Traces.pure t
  | steps ss closing =>
    have h := (traces_steps B x ss).bind fun (vs : List Value) =>
      Traces.lift (Fault.lift (Behaviour.joined "" (vs ++ [Value.text closing])))
    simp only [after_nil, List.append_nil] at h
    exact h

/-- Keeping the log changes nothing in what is written. -/
theorem render_logged (B : Behaviour) (r : Renderer) (x : Value) :
    ((r.renderWith B (Demand.logged B x)).run.run []).1 = r.render B x := by
  rw [traces_render B x r []]

theorem demands_eq (B : Behaviour) (r : Renderer) (x : Value) :
    r.demands B x = demandsOf B x r.stepList := by
  rw [demands, traces_render B x r [], List.nil_append]

end Renderer

end RecordText
