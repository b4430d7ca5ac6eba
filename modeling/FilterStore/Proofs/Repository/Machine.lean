import Mathlib.Algebra.BigOperators.Group.Finset.Basic
import Mathlib.Data.Finmap
import Mathlib.Data.Finset.Sort
import FilterStore.Proofs.Repository.Step

/-!
The repository as a machine with one active pointer for each owner.

* **Shelves.** A `Shelf` is what an owner has: a finite map from names to contents, and at most one
  pair of the active name and its date. There is nothing else that could disagree with it.
* **The machine.** A `Machine` has a shelf for each owner and a limit for each quota key.
  `Machine.perform` is what an operation does: it fails, or answers and goes on with another
  machine. Sums are exact numbers, and `Machine.limitFor` is the limit that applies to an owner.
* **Runs.** `Machine.answers` are the answers to operations performed one after another, where a
  failed one leaves the machine as it was.
-/

namespace FilterStore

/-! ### The order of names -/

namespace Text

/-- One text does not come after another one in the order of their bytes. -/
def AtMost (s t : String) : Prop :=
  precedes t s = false

instance : DecidableRel AtMost := fun s t =>
  inferInstanceAs (Decidable (precedes t s = false))

/-- Of two different texts that are not in the other order, the first one precedes. -/
lemma precedes_of_atMost {s t : String} (h : AtMost s t) (hne : s ≠ t) : precedes s t = true := by
  refine (precedes_total hne).resolve_right fun hts => ?_
  rw [AtMost, hts] at h
  cases h

lemma AtMost.of_precedes {s t : String} (h : precedes s t = true) : AtMost s t := by
  by_contra hts
  rw [AtMost, Bool.not_eq_false] at hts
  have hss := precedes_trans h hts
  rw [precedes_irrefl] at hss
  cases hss

instance : IsTrans String AtMost where
  trans s t u hst htu := by
    by_cases hs : s = t
    · rwa [hs]
    · by_cases ht : t = u
      · rwa [← ht]
      · exact .of_precedes (precedes_trans (precedes_of_atMost hst hs) (precedes_of_atMost htu ht))

instance : Std.Antisymm AtMost where
  antisymm s t hst hts := by
    by_contra hne
    have h := precedes_of_atMost hst hne
    rw [hts] at h
    cases h

instance : Std.Total AtMost where
  total s t := by
    by_cases h : s = t
    · rw [h]
      exact .inl (precedes_irrefl t)
    · exact (precedes_total h).imp .of_precedes .of_precedes

end Text

/-! ### Shelves -/

/-- What an owner has. -/
structure Shelf where
  /-- The contents by name. -/
  contents : Finmap fun _ : String => String
  /-- The active name and its date. -/
  active : Option (String × Instant)

namespace Shelf

/-- The shelf of an owner who has nothing. -/
def empty : Shelf :=
  ⟨∅, none⟩

variable (shelf : Shelf)

/-- The content of a name, and nothing if there is none. -/
def content (name : String) : String :=
  (shelf.contents.lookup name).getD ""

/-- The date of a name if it is the active one. -/
def dateOf (name : String) : Option Instant :=
  shelf.active.bind fun p => if p.1 = name then some p.2 else none

/-- The names in the order of their bytes. -/
def names : List String :=
  shelf.contents.keys.sort Text.AtMost

/-- The bytes of the contents of other names. -/
def usedBeside (name : String) : ℕ :=
  ∑ other ∈ shelf.contents.keys.erase name, (shelf.content other).utf8ByteSize

/-- The shelf with a content under a name; the pair stays. -/
def put (name content : String) : Shelf :=
  { shelf with contents := shelf.contents.insert name content }

/-- The shelf with another pair. -/
def activate (name : String) (now : Instant) : Shelf :=
  { shelf with active := some (name, now) }

/-- The shelf without a pair. -/
def switchOff : Shelf :=
  { shelf with active := none }

/-- The shelf without a name. -/
def remove (name : String) : Shelf :=
  { shelf with contents := shelf.contents.erase name }

/-- The shelf with a content under another name, to which the pair moves along. -/
def move (source target content : String) : Shelf :=
  ⟨(shelf.contents.erase source).insert target content,
    shelf.active.map fun p => if p.1 = source then (target, p.2) else p⟩

end Shelf

/-! ### The machine -/

/-- All shelves and all limits. -/
structure Machine where
  /-- What each owner has. -/
  shelf : String → Shelf
  /-- The limits by key. -/
  limit : QuotaKey → Option Limit

namespace Machine

/-- The machine in which no one has anything and nothing is limited. -/
def start : Machine :=
  ⟨fun _ => .empty, fun _ => none⟩

variable (m : Machine)

/-- The machine with another shelf of an owner. -/
def withShelf (owner : String) (shelf : Shelf) : Machine :=
  { m with shelf := Function.update m.shelf owner shelf }

/-- The machine with another limit of a key. -/
def withLimit (key : QuotaKey) (limit : Option Limit) : Machine :=
  { m with limit := Function.update m.limit key limit }

@[simp] lemma withShelf_self (owner : String) (shelf : Shelf) :
    (m.withShelf owner shelf).shelf owner = shelf := by
  simp only [withShelf, Function.update_self]

lemma withShelf_of_ne {owner o : String} (h : o ≠ owner) (shelf : Shelf) :
    (m.withShelf owner shelf).shelf o = m.shelf o := by
  simp only [withShelf, Function.update_of_ne h]

/-- A shelf in its own place changes nothing. -/
@[simp] lemma withShelf_shelf (owner : String) : m.withShelf owner (m.shelf owner) = m := by
  rw [withShelf, Function.update_eq_self]

/-- The last shelf counts. -/
@[simp] lemma withShelf_withShelf (owner : String) (first second : Shelf) :
    (m.withShelf owner first).withShelf owner second = m.withShelf owner second := by
  simp only [withShelf, Function.update_idem]

@[simp] lemma withLimit_self (key : QuotaKey) (limit : Option Limit) :
    (m.withLimit key limit).limit key = limit := by
  simp only [withLimit, Function.update_self]

lemma withLimit_of_ne {key k : QuotaKey} (h : k ≠ key) (limit : Option Limit) :
    (m.withLimit key limit).limit k = m.limit k := by
  simp only [withLimit, Function.update_of_ne h]

/-- The limit that applies to an owner: that of the owner's entry, else that of the default entry,
else none. -/
def limitFor (owner : String) : Limit :=
  match m.limit (.owner owner), m.limit .default with
  | some own, _ => own
  | none, some default => default
  | none, none => .unlimited

/-- Fails if so many bytes would not fit beside those of the other names. The bytes used are told as
a number of 64 bits. -/
def checkSpace (owner name : String) (bytes : ℕ) : Except Failure Unit :=
  match m.limitFor owner with
  | .unlimited => .ok ()
  | .bytes count =>
    let used := (m.shelf owner).usedBeside name
    if used + bytes ≤ count.toNat then .ok ()
    else .error (.quotaExceeded owner (.ofNat (min used (UInt64.size - 1))) (.ofNat bytes) count)

/-- Tells a limit. -/
def getLimit (key : QuotaKey) : Except Failure (Answer × Machine) :=
  match m.limit key with
  | none => .error (.quotaNotFound key)
  | some limit => .ok (.limit limit, m)

/-- Sets a limit; one of `2^63` bytes or more is refused. -/
def setLimit (key : QuotaKey) : Limit → Except Failure (Answer × Machine)
  | .unlimited => .ok (.done, m.withLimit key (some .unlimited))
  | .bytes count =>
    if count.toNat < columnBound then .ok (.done, m.withLimit key (some (.bytes count)))
    else .error (.limitTooLarge count)

/-- What an operation on good names does at a given time. -/
def act (now : Instant) (m : Machine) : Operation → Except Failure (Answer × Machine)
  | .haveSpace owner name size => do
    m.checkSpace owner name size.toNat
    return (.done, m)
  | .put owner name content => do
    m.checkSpace owner name content.utf8ByteSize
    return (.done, m.withShelf owner ((m.shelf owner).put name content))
  | .list owner =>
    let shelf := m.shelf owner
    .ok (.listing (shelf.names.map fun name => ⟨name, (shelf.dateOf name).isSome⟩), m)
  | .get owner name =>
    match (m.shelf owner).contents.lookup name with
    | none => .error (.scriptNotFound name owner)
    | some content => .ok (.content content, m)
  | .getActive owner =>
    match (m.shelf owner).active with
    | none => .error (.noActiveScript owner)
    | some (name, _) => .ok (.content ((m.shelf owner).content name), m)
  | .getActivationDate owner =>
    match (m.shelf owner).active with
    | none => .error (.noActiveScript owner)
    | some (_, date) => .ok (.date date, m)
  | .setActive owner name =>
    if name = "" then .ok (.done, m.withShelf owner (m.shelf owner).switchOff)
    else
      match (m.shelf owner).contents.lookup name with
      | none => .error (.scriptNotFound name owner)
      | some _ => .ok (.done, m.withShelf owner ((m.shelf owner).activate name now))
  | .delete owner name =>
    match (m.shelf owner).contents.lookup name with
    | none => .error (.scriptNotFound name owner)
    | some _ =>
      match (m.shelf owner).dateOf name with
      | some _ => .error (.scriptActive name owner)
      | none => .ok (.done, m.withShelf owner ((m.shelf owner).remove name))
  | .rename owner source target =>
    match (m.shelf owner).contents.lookup source with
    | none => .error (.scriptNotFound source owner)
    | some content =>
      match (m.shelf owner).contents.lookup target with
      | some _ => .error (.nameTaken target owner)
      | none => .ok (.done, m.withShelf owner ((m.shelf owner).move source target content))
  | .hasDefaultQuota => .ok (.yes (m.limit .default).isSome, m)
  | .hasQuota owner => .ok (.yes (m.limit (.owner owner)).isSome, m)
  | .getDefaultQuota => m.getLimit .default
  | .getQuota owner => m.getLimit (.owner owner)
  | .setDefaultQuota limit => m.setLimit .default limit
  | .setQuota owner limit => m.setLimit (.owner owner) limit
  | .removeDefaultQuota => .ok (.done, m.withLimit .default none)
  | .removeQuota owner => .ok (.done, m.withLimit (.owner owner) none)

/-- What an operation does at a given time: it fails, or answers and goes on with another machine.
The names are checked first. -/
def perform (now : Instant) (m : Machine) (op : Operation) : Except Failure (Answer × Machine) := do
  op.checks
  m.act now op

/-- The answers to operations performed one after another, each at its own time. -/
def answers : List (Instant × Operation) → Machine → List (Except Failure Answer)
  | [], _ => []
  | (now, op) :: rest, m =>
    match m.perform now op with
    | .ok (answer, after) => .ok answer :: answers rest after
    | .error failure => .error failure :: answers rest m

end Machine

end FilterStore
