/-
Parties: lockers that consist of a few flags.

They let a lock table be used on its own.  A party whose time is up counts as overdue from the
start, any other has all the time there is.  A stubborn party refuses to give up.
-/
import ObjectStore.FinMap
import ObjectStore.Locking.Locker

namespace ObjectStore

/-- The number of a party. -/
abbrev PartyId := Nat

/-- A locker and its flags. -/
structure Party where
  seniority : Seniority
  ordinal : Nat
  timeIsUp : Bool
  stubborn : Bool
  active : Bool
  /-- Why it gave up last. -/
  fate : Option (WoundReason PartyId)
  deriving DecidableEq, Repr

/-- How a party is shown. -/
def PartyId.text (id : PartyId) : String := s!"L{id}"

/-- The reason in a few words. -/
def WoundReason.text : WoundReason PartyId → String
  | outranked elder => s!"wounded by {elder}"
  | expired => "expired"

namespace Party

/-- The only moment at which parties act. -/
def now : Nat := 1

/-- The deadline of a party: before or after `now`. -/
def deadline (p : Party) : Nat := if p.timeIsUp then 0 else 2

/-- A party gives up unless it is stubborn. -/
def wound (p : Party) (reason : WoundReason PartyId) : Bool × Party :=
  if p.stubborn then (false, p) else (true, { p with active := false, fate := some reason })

/-- Stands for a party that nobody has named: it can do nothing. -/
def absent : Party := ⟨⟨0, 0⟩, 0, false, true, false, none⟩

end Party

/-- The parties that use a table. -/
structure Parties where
  members : FinMap PartyId Party

namespace Parties

/-- Nobody yet. -/
def none : Parties := ⟨∅⟩

/-- The party of a number. -/
def find (s : Parties) (id : PartyId) : Party := (s.members.get? id).getD .absent

/-- Puts a party in place. -/
def put (s : Parties) (id : PartyId) (p : Party) : Parties := ⟨s.members.insert id p⟩

theorem find_put (s : Parties) (id : PartyId) (p : Party) (id' : PartyId) :
    (s.put id p).find id' = if id = id' then p else s.find id' := by
  unfold find put
  rw [FinMap.get?_insert]
  split <;> rfl

/-- Changes the flags of a party. -/
def modify (s : Parties) (id : PartyId) (f : Party → Party) : Parties := s.put id (f (s.find id))

instance : Lockers Parties PartyId where
  seniority s id := (s.find id).seniority
  ordinal s id := (s.find id).ordinal
  deadline s id := (s.find id).deadline
  isActive s id := (s.find id).active
  wound s id reason :=
    let (gaveUp, p) := (s.find id).wound reason
    (gaveUp, s.put id p)

end Parties

end ObjectStore
