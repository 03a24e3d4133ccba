import Abacus.Store.Contents

/-!
# Stores in memory

A store answers with the text that was last put under a key.  Its listeners are told of every write
after their subscription; what each was told is kept with the store.
-/

namespace Abacus

namespace Store

/-- What each listener was told: the keys and texts that were written. -/
structure Listeners where
  heard : List (List (String × String)) := []
deriving DecidableEq, Repr, Inhabited

/-- One more listener, which has heard nothing yet. -/
def Listeners.subscribe (ls : Listeners) : Listeners :=
  ⟨ls.heard ++ [[]]⟩

/-- Tells all listeners of a write. -/
def Listeners.notify (ls : Listeners) (key value : String) : Listeners :=
  ⟨ls.heard.map (· ++ [(key, value)])⟩

/-- A store in memory. -/
structure Memory where
  contents : Contents := {}
  listeners : Listeners := {}
deriving Inhabited

namespace Memory

/-- The text under a key. -/
def get? (m : Memory) (key : String) : Option String :=
  m.contents.get? key

/-- Puts a text under a key. -/
def set (m : Memory) (key value : String) : Memory where
  contents := m.contents.insert key value
  listeners := m.listeners.notify key value

/-- Adds a listener. -/
def subscribe (m : Memory) : Memory :=
  { m with listeners := m.listeners.subscribe }

end Memory

end Store

end Abacus
