import Egress.Embedding.Callback
import Egress.Lookup.Basic
import Egress.Policy.Basic

/-!
Answers written down in advance. They serve as policy engines, resolvers, name services and
callbacks for runs without the real ones, and note every question they are asked.
-/

namespace Egress.Rehearsal

structure Question where
  application : String
  name : String
  port : UInt16
deriving DecidableEq, Repr

/-- Answers for the questions about a name and a port, where given. -/
structure Cue (α : Type) where
  name : Option String
  port : Option UInt16
  answers : List α

def Cue.fits {α : Type} (cue : Cue α) (q : Question) : Bool :=
  cue.name.all (· == q.name) && cue.port.all (· == q.port)

/-- The first cue that fits a question answers it, its last answer over and over. -/
structure Prompter (α : Type) where
  cues : List (Cue α)
  otherwise : α
  asked : List Question := []

/-- The next answer out of some cues, and the cues after it. -/
def take {α : Type} (otherwise : α) (q : Question) : List (Cue α) → α × List (Cue α)
  | [] => (otherwise, [])
  | cue :: cues =>
      if cue.fits q then
        match cue.answers with
        | [] => (otherwise, cue :: cues)
        | [last] => (last, cue :: cues)
        | answer :: answers => (answer, { cue with answers } :: cues)
      else
        let (answer, cues) := take otherwise q cues
        (answer, cue :: cues)

def Prompter.ask {α : Type} (p : Prompter α) (application name : String) (port : UInt16) :
    α × Prompter α :=
  let q : Question := ⟨application, name, port⟩
  let (answer, cues) := take p.otherwise q p.cues
  (answer, { p with cues, asked := p.asked ++ [q] })

instance : PolicyEngine (Prompter (Except PolicyError PolicyAnswer)) where
  evaluate p application name port := p.ask application name port

instance : Embedding.PolicyCallback (Prompter Embedding.PolicyReply) where
  evaluate p application name port := p.ask application name port

structure Directory (α : Type) where
  entries : List (String × α)
  otherwise : α
  asked : List String := []

def Directory.ask {α : Type} (d : Directory α) (name : String) : α × Directory α :=
  ((d.entries.lookup name).getD d.otherwise, { d with asked := d.asked ++ [name] })

instance : NameService (Directory (Except LookupFailure (List IpAddr))) where
  lookup d _ name := d.ask name

instance : Resolver (Directory (UInt16 → Except ResolveError (List SocketAddr))) where
  resolve d _ host port :=
    let (answer, d) := d.ask host
    (answer port, d)

instance : Embedding.ResolveCallback (Directory (UInt16 → Embedding.ResolveReply)) where
  resolve d host port :=
    let (answer, d) := d.ask host
    (answer port, d)

end Egress.Rehearsal
