import Progeny.Json.Basic

/-! A record of what happened, in the order in which it happened. -/

namespace Progeny

/-- A list of entries, or none at all where nothing is to be kept. -/
structure Journal (ε : Type) where
  isKept : Bool := true
  entries : List ε := []

namespace Journal

variable {ε : Type}

/-- Adds an entry at the end, if entries are kept. -/
def add (journal : Journal ε) (entry : ε) : Journal ε :=
  if journal.isKept then { journal with entries := journal.entries ++ [entry] } else journal

/-- Forgets all entries. -/
def clear (journal : Journal ε) : Journal ε :=
  { journal with entries := [] }

/-- The entries whose name begins with a text. -/
def named (journal : Journal ε) (name : ε → String) (start : String) : List ε :=
  journal.entries.filter fun entry => start.toList.isPrefixOf (name entry).toList

end Journal

/-- A named entry with data, which may be missing. -/
structure Note where
  kind : String
  data : Option Json

end Progeny
