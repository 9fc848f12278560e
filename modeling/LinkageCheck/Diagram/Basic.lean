/-! Words joined by labelled links. -/

namespace LinkageCheck

structure Link where
  left : Nat
  right : Nat
  label : String
  deriving DecidableEq, Repr

/-- A link that does not join two different words of the diagram in their order. -/
structure InvalidLink where
  link : Link
  words : Nat
  deriving DecidableEq, Repr

def InvalidLink.message (e : InvalidLink) : String :=
  s!"link {e.link.left}-{e.link.right} `{e.link.label}` "
    ++ s!"must join two distinct words out of {e.words}"

structure Diagram where
  words : List String
  links : List Link
  valid : ∀ l ∈ links, l.left < l.right ∧ l.right < words.length

namespace Diagram

def ofWords (words : List String) : Diagram := ⟨words, [], by simp⟩

def addLink (d : Diagram) (link : Link) : Except InvalidLink Diagram :=
  if h : link.left < link.right ∧ link.right < d.words.length then
    .ok {
      words := d.words
      links := d.links ++ [link]
      valid := fun l hl => by
        rcases List.mem_append.mp hl with hl | hl
        · exact d.valid l hl
        · exact List.mem_singleton.mp hl ▸ h }
  else .error ⟨link, d.words.length⟩

def addLinks (d : Diagram) : List Link → Except InvalidLink Diagram
  | [] => .ok d
  | link :: links => do (← d.addLink link).addLinks links

end Diagram

end LinkageCheck
