/-
Renderers: compiled plans.

A renderer is a constant text, or a list of steps with a closing token. Each step writes its lead
(the opening token or the separator, the label and the assignment token) and the fragment of one
part. The fragments are joined when all of them are there, so the first step that fails decides.

`Renderer.renderWith` leaves open how the demands of the parts are met; `Renderer.render` meets them
for a record.
-/
import RecordText.Fragment
import RecordText.Member

namespace RecordText

/-- One member of a compiled plan. -/
structure Step where
  lead : String
  part : Part
  writer : Writer
  deriving Repr, Inhabited

/-- A compiled plan. -/
inductive Renderer
  | constant (text : String)
  | steps (steps : List Step) (closing : String)
  deriving Repr, Inhabited

section

variable {M : Type → Type} [Monad M] [MonadLiftT (Except Failure) M]

/-- The fragment of a step: the part is read and then written. -/
def Step.fragmentWith (B : Behaviour) (answer : Demand → M Value) (s : Step) : M Value := do
  let v ← s.part.readWith B answer
  s.writer.write B v

namespace Renderer

/-- The leads and the fragments of several steps, one after the other. -/
def partsWith (B : Behaviour) (answer : Demand → M Value) : List Step → M (List Value)
  | [] => pure []
  | s :: ss => do
    let f ← s.fragmentWith B answer
    return .text s.lead :: f :: (← partsWith B answer ss)

/-- The written form, where `answer` meets the demands. -/
def renderWith (B : Behaviour) (answer : Demand → M Value) : Renderer → M String
  | .constant t => pure t
  | .steps ss closing => do
    let vs ← partsWith B answer ss
    Fault.lift (Behaviour.joined "" (vs ++ [.text closing]))

end Renderer

end

/-- The fragment of a step for a record. -/
def Step.fragment (B : Behaviour) (s : Step) (v : Value) : Except Failure Value :=
  s.fragmentWith B (Demand.answer B v)

/-- The written form of a record. -/
def Renderer.render (B : Behaviour) (r : Renderer) (v : Value) : Except Failure String :=
  r.renderWith B (Demand.answer B v)

end RecordText
