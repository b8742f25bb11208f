/-!
Permits that are handed out in the order in which they are asked for. Whoever asks for more than
are free takes the free ones at once and waits for the rest; nobody who comes later gets a permit
before that. A waiter owns what it was given, whether or not it has noticed.
-/

namespace StyleBlock

/-- Someone who asked for `wanted` permits and still misses some of them. -/
structure Waiter where
  ticket : Nat
  wanted : Nat
  missing : Nat
deriving DecidableEq, Repr

/-- The permits a waiter owns already. -/
def Waiter.owned (waiter : Waiter) : Nat := waiter.wanted - waiter.missing

structure Permits where
  free : Nat
  /-- Those who miss permits, first come first. -/
  waiters : List Waiter
  /-- Those who miss none any more, but have not taken them up. -/
  served : List Waiter
  nextTicket : Nat
deriving DecidableEq, Repr

namespace Permits

def ofCount (count : Nat) : Permits := ⟨count, [], [], 0⟩

/-- Hands permits to waiters in order. What comes back are the waiters that now miss none, those
that still wait, and the permits that are left when nobody waits. -/
def serve (count : Nat) : List Waiter → List Waiter × List Waiter × Nat
  | [] => ([], [], count)
  | first :: rest =>
    if first.missing ≤ count then
      let (served, waiting, left) := serve (count - first.missing) rest
      ({ first with missing := 0 } :: served, waiting, left)
    else ([], { first with missing := first.missing - count } :: rest, 0)

/-- Gives permits back. -/
def release (permits : Permits) (count : Nat) : Permits :=
  let (served, waiting, left) := serve count permits.waiters
  { permits with
    free := permits.free + left, waiters := waiting, served := permits.served ++ served }

/-- Asks for permits: the caller holds them at once, or gets a ticket to wait with. -/
def acquire (permits : Permits) (wanted : Nat) : Permits × Option Nat :=
  if wanted ≤ permits.free then ({ permits with free := permits.free - wanted }, none)
  else
    let waiter : Waiter := ⟨permits.nextTicket, wanted, wanted - permits.free⟩
    ({ permits with
        free := 0, waiters := permits.waiters ++ [waiter], nextTicket := permits.nextTicket + 1 },
      some permits.nextTicket)

/-- Takes up the permits of a ticket, if it misses none any more. The caller then holds them. -/
def takeUp? (permits : Permits) (ticket : Nat) : Option Permits :=
  if permits.served.any fun waiter => waiter.ticket = ticket then
    some { permits with served := permits.served.filter fun waiter => waiter.ticket ≠ ticket }
  else none

/-- The tickets that have got their last missing permit since an earlier state, in order. -/
def servedSince (permits before : Permits) : List Nat :=
  (permits.served.map Waiter.ticket).filter fun ticket =>
    !(before.served.map Waiter.ticket).contains ticket

/-- The permits that a ticket owns. -/
def ownedBy (permits : Permits) (ticket : Nat) : Nat :=
  (((permits.waiters ++ permits.served).find? fun waiter => waiter.ticket = ticket).map
    Waiter.owned).getD 0

/-- Gives a ticket up; what it owned goes to the waiters behind it. -/
def giveUp (permits : Permits) (ticket : Nat) : Permits :=
  let others := { permits with
    waiters := permits.waiters.filter fun waiter => waiter.ticket ≠ ticket
    served := permits.served.filter fun waiter => waiter.ticket ≠ ticket }
  others.release (permits.ownedBy ticket)

end Permits

end StyleBlock
