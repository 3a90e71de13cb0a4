import ObjectMachine.Value

/-!
# The string table

Strings are interned: equal texts have one index, so strings are compared by index. The table
only grows, and its first entry is the empty string.

Next to the texts the table keeps where they are, so that a text that comes again is found without
a look at the others. The two are kept in step: a table says of every text that it holds where the
text is, and says nothing of any other.
-/

namespace ObjectMachine

structure StringTable where
  /-- The interned strings, in the order in which they came. -/
  texts : Array String
  /-- The indices of the texts, the newest first. -/
  index : List (String × StrRef)
  placed : ∀ {text ref}, index.lookup text = some ref →
    ∃ place, texts[place]? = some text ∧ ref = ⟨UInt32.ofNat place⟩
  complete : ∀ {text}, text ∈ texts → (index.lookup text).isSome
  deriving DecidableEq, Repr

namespace StringTable

def size (table : StringTable) : Nat :=
  table.texts.size

def isEmpty (table : StringTable) : Bool :=
  table.texts.isEmpty

def get? (table : StringTable) (ref : StrRef) : Option String :=
  table.texts[ref.index]?

def find? (table : StringTable) (text : String) : Option StrRef :=
  table.index.lookup text

def add (table : StringTable) (text : String) : StringTable where
  texts := table.texts.push text
  index := (text, ⟨UInt32.ofNat table.size⟩) :: table.index
  placed := by
    intro other ref found
    rw [List.lookup_cons] at found
    split at found
    · next same =>
        cases eq_of_beq same
        cases found
        exact ⟨table.size, by simp [size], rfl⟩
    · rcases table.placed found with ⟨place, at_place, same⟩
      refine ⟨place, ?_, same⟩
      have inside := (Array.getElem?_eq_some_iff.mp at_place).1
      rw [Array.getElem?_push_lt inside, ← at_place, Array.getElem?_eq_getElem inside]
  complete := by
    intro other mem
    rw [List.lookup_cons]
    split
    · rfl
    · next different =>
        rcases Array.mem_push.mp mem with old | same
        · exact table.complete old
        · simp [same] at different

def intern (table : StringTable) (text : String) : StrRef × StringTable :=
  match table.find? text with
  | some ref => (ref, table)
  | none => (⟨UInt32.ofNat table.size⟩, table.add text)

/-- A table without texts. -/
def bare : StringTable where
  texts := #[]
  index := []
  placed := by
    intro text ref found
    cases found
  complete := by
    intro text mem
    exact absurd mem (Array.not_mem_empty text)

/-- The table that holds the empty string alone. -/
def empty : StringTable :=
  (bare.intern "").2

instance : Inhabited StringTable := ⟨empty⟩

def toList (table : StringTable) : List String :=
  table.texts.toList

end StringTable
end ObjectMachine
