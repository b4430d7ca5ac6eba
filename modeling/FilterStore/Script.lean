import FilterStore.Time.Instant

/-!
Mail-filtering scripts.

A `Script` belongs to an owner and has a name, a content and a size in bytes. It is marked active or
not, and carries the date of its activation. A script made from a content (`Script.fresh`) is
inactive and has the content's length as its size; `activate` and `deactivate` change mark and date
together, so both agree in every script made this way. A `Summary` is what a listing shows.
-/

namespace FilterStore

/-- A script of an owner. -/
structure Script where
  /-- Whose script it is. -/
  owner : String
  /-- The name, unique among the owner's scripts. -/
  name : String
  /-- The text of the script. -/
  content : String
  /-- The size in bytes. -/
  size : UInt64
  /-- Whether the script is marked active. -/
  active : Bool
  /-- When it was activated. -/
  activatedAt : Option Instant
  deriving DecidableEq, Repr

/-- A script as a listing shows it. -/
structure Summary where
  /-- The name. -/
  name : String
  /-- Whether the script is marked active. -/
  active : Bool
  deriving DecidableEq, Repr

/-- The number of bytes of a content. -/
def contentSize (content : String) : UInt64 :=
  .ofNat content.utf8ByteSize

namespace Script

/-- An inactive script with the given content. -/
def fresh (owner name content : String) : Script :=
  ⟨owner, name, content, contentSize content, false, none⟩

/-- The script marked active from the given instant on. -/
def activate (s : Script) (now : Instant) : Script :=
  { s with active := true, activatedAt := some now }

/-- The script without mark and date. -/
def deactivate (s : Script) : Script :=
  { s with active := false, activatedAt := none }

/-- The script with the mark and date of another one. -/
def inheriting (s previous : Script) : Script :=
  { s with active := previous.active, activatedAt := previous.activatedAt }

/-- The script under another name. -/
def renamed (s : Script) (name : String) : Script :=
  { s with name := name }

/-- What a listing shows of the script. -/
def summary (s : Script) : Summary :=
  ⟨s.name, s.active⟩

/-- Mark and date agree. -/
def Coherent (s : Script) : Prop :=
  s.active = s.activatedAt.isSome

theorem coherent_fresh (owner name content : String) : (fresh owner name content).Coherent :=
  rfl

theorem coherent_activate (s : Script) (now : Instant) : (s.activate now).Coherent :=
  rfl

theorem coherent_deactivate (s : Script) : s.deactivate.Coherent :=
  rfl

end Script

end FilterStore
