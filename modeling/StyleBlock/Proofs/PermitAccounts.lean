import Mathlib
import StyleBlock.Queue.Basic

/-!
Where the permits of a queue are. Every permit is free, or held by a job that runs, or owned by
someone who has asked for permits: nobody but the first of those who still miss some owns any.
-/

namespace StyleBlock

/-- An item whose key no other item has can be put before the others. -/
theorem perm_cons_filter {α κ : Type} [DecidableEq κ] {key : α → κ} {items : List α} {item : α}
    (nodup : (items.map key).Nodup) (member : item ∈ items) :
    items.Perm (item :: items.filter fun other => key other ≠ key item) := by
  induction items with
  | nil => cases member
  | cons first rest ih =>
    obtain ⟨absent, nodup⟩ := List.nodup_cons.mp nodup
    rcases List.mem_cons.mp member with rfl | member
    · have all : rest.filter (fun other => key other ≠ key item) = rest := by
        refine List.filter_eq_self.mpr fun other present => decide_eq_true fun same => absent ?_
        exact same ▸ List.mem_map_of_mem present
      rw [List.filter_cons, if_neg (by simp), all]
    · have different : key first ≠ key item := by
        intro same
        exact absent (same ▸ List.mem_map_of_mem member)
      rw [List.filter_cons, if_pos (decide_eq_true different)]
      exact ((ih nodup member).cons first).trans (.swap ..)

/-- What someone holds of a queue: the permit of a running job, or a ticket for so many permits. -/
inductive Holding where
  | running
  | ticket (number wanted : Nat)
deriving DecidableEq

namespace Holding

/-- The permit of a running job. -/
def permits : Holding → Nat
  | running => 1
  | ticket _ _ => 0

def ticket? : Holding → Option (Nat × Nat)
  | running => none
  | ticket number wanted => some (number, wanted)

end Holding

namespace Waiter

/-- The ticket of a waiter, and for how many permits it is. -/
def claim (waiter : Waiter) : Nat × Nat := (waiter.ticket, waiter.wanted)

end Waiter

namespace Permits

/-- The permits that waiters own. -/
def owned (waiters : List Waiter) : Nat := (waiters.map Waiter.owned).sum

/-- Those who wait, in order: each misses some permits, and all but the first miss all they want. -/
structure AreInLine (capacity : Nat) (waiters : List Waiter) : Prop where
  missing : ∀ waiter ∈ waiters, 0 < waiter.missing ∧ waiter.missing ≤ waiter.wanted ∧
    waiter.wanted ≤ capacity
  behind : ∀ waiter ∈ waiters.tail, waiter.owned = 0

/-- What comes of permits that are handed to waiters. -/
structure Serves (capacity count : Nat) (waiters : List Waiter)
    (result : List Waiter × List Waiter × Nat) : Prop where
  inLine : AreInLine capacity result.2.1
  served : ∀ waiter ∈ result.1, waiter.missing = 0 ∧ 0 < waiter.wanted
  claims : (result.1 ++ result.2.1).map Waiter.claim = waiters.map Waiter.claim
  owned : owned result.1 + Permits.owned result.2.1 + result.2.2 = Permits.owned waiters + count
  left : result.2.1 ≠ [] → result.2.2 = 0

theorem serve_serves {capacity : Nat} (waiters : List Waiter) (inLine : AreInLine capacity waiters)
    (count : Nat) : Serves capacity count waiters (serve count waiters) := by
  induction waiters generalizing count with
  | nil => exact ⟨inLine, by simp [serve], rfl, by simp [serve, owned], by simp [serve]⟩
  | cons first rest ih =>
    obtain ⟨positive, within, bounded⟩ := inLine.missing first List.mem_cons_self
    have restInLine : AreInLine capacity rest :=
      ⟨fun waiter member => inLine.missing waiter (List.mem_cons_of_mem _ member),
        fun waiter member => inLine.behind waiter (List.mem_of_mem_tail member)⟩
    rw [serve]
    split
    · have later := ih restInLine (count - first.missing)
      generalize serve (count - first.missing) rest = result at *
      obtain ⟨served, waiting, left⟩ := result
      obtain ⟨inLineLater, servedLater, claims, ownedLater, leftLater⟩ := later
      refine ⟨inLineLater, ?_, ?_, ?_, leftLater⟩
      · intro waiter member
        rcases List.mem_cons.mp member with rfl | member
        · exact ⟨rfl, by dsimp only; omega⟩
        · exact servedLater waiter member
      · simpa [Waiter.claim] using claims
      · simp only [owned, List.map_cons, List.sum_cons, Waiter.owned] at ownedLater ⊢
        omega
    · refine ⟨⟨?_, inLine.behind⟩, by simp, by simp [Waiter.claim], ?_, by simp⟩
      · intro waiter member
        rcases List.mem_cons.mp member with rfl | member
        · dsimp only
          omega
        · exact restInLine.missing waiter member
      · simp only [owned, List.map_cons, List.sum_cons, List.map_nil, List.sum_nil, Waiter.owned]
        omega

/-- Whether all permits are where they should be, given what everybody holds; so many are at large,
taken up by someone who is about to hold them or to give them back. -/
structure Accounts (permits : Permits) (capacity atLarge : Nat) (holdings : List Holding) :
    Prop where
  /-- No permit is lost. -/
  total : permits.free + atLarge + (holdings.map Holding.permits).sum + owned permits.waiters +
    owned permits.served = capacity
  inLine : AreInLine capacity permits.waiters
  idle : permits.waiters ≠ [] → permits.free = 0
  served : ∀ waiter ∈ permits.served, waiter.missing = 0 ∧ 0 < waiter.wanted
  /-- Every ticket is held by one, and everyone who holds one waits or has been served. -/
  claims : ((permits.waiters ++ permits.served).map Waiter.claim).Perm
    (holdings.filterMap Holding.ticket?)
  tickets : ((permits.waiters ++ permits.served).map Waiter.ticket).Nodup
  older : ∀ waiter ∈ permits.waiters ++ permits.served, waiter.ticket < permits.nextTicket

namespace Accounts

variable {permits : Permits} {capacity atLarge : Nat} {holdings : List Holding}

theorem of_perm (accounts : permits.Accounts capacity atLarge holdings) {other : List Holding}
    (perm : other.Perm holdings) : permits.Accounts capacity atLarge other := by
  refine { accounts with total := ?_, claims := ?_ }
  · rw [(perm.map Holding.permits).sum_eq]
    exact accounts.total
  · exact accounts.claims.trans (perm.filterMap _).symm

theorem ofCount (capacity : Nat) : (Permits.ofCount capacity).Accounts capacity 0 [] where
  total := by simp [Permits.ofCount, owned]
  inLine := ⟨by simp [Permits.ofCount], by simp [Permits.ofCount]⟩
  idle := by simp [Permits.ofCount]
  served := by simp [Permits.ofCount]
  claims := by simp [Permits.ofCount]
  tickets := by simp [Permits.ofCount]
  older := by simp [Permits.ofCount]

/-- A job runs as long as it holds a permit. -/
theorem running_iff : permits.Accounts capacity atLarge (.running :: holdings) ↔
    permits.Accounts capacity (atLarge + 1) holdings := by
  constructor
  · intro accounts
    refine { accounts with total := ?_, claims := ?_ }
    · have total := accounts.total
      simp only [List.map_cons, List.sum_cons, Holding.permits] at total
      omega
    · exact accounts.claims
  · intro accounts
    refine { accounts with total := ?_, claims := ?_ }
    · have total := accounts.total
      simp only [List.map_cons, List.sum_cons, Holding.permits]
      omega
    · exact accounts.claims

theorem owned_append (first second : List Waiter) :
    owned (first ++ second) = owned first + owned second := by
  simp [owned]

/-- Permits at large are given back. -/
theorem release {count : Nat} (accounts : permits.Accounts capacity (atLarge + count) holdings) :
    (permits.release count).Accounts capacity atLarge holdings := by
  have serves := serve_serves permits.waiters accounts.inLine count
  unfold Permits.release
  generalize serve count permits.waiters = result at *
  obtain ⟨served, waiting, left⟩ := result
  obtain ⟨inLine, servedNow, claims, ownedNow, leftOver⟩ := serves
  dsimp only at *
  have perm :
      (waiting ++ (permits.served ++ served)).Perm ((served ++ waiting) ++ permits.served) := by
    rw [← List.append_assoc]
    refine List.perm_append_comm.trans ?_
    rw [← List.append_assoc]
  have claimsAfter : ((waiting ++ (permits.served ++ served)).map Waiter.claim).Perm
      ((permits.waiters ++ permits.served).map Waiter.claim) := by
    refine (perm.map _).trans ?_
    rw [List.map_append, claims, ← List.map_append]
  have ticketsAfter : ((waiting ++ (permits.served ++ served)).map Waiter.ticket).Perm
      ((permits.waiters ++ permits.served).map Waiter.ticket) := by
    have firsts := claimsAfter.map Prod.fst
    rwa [List.map_map, List.map_map] at firsts
  refine ⟨?_, inLine, ?_, ?_, claimsAfter.trans accounts.claims, ?_, ?_⟩
  · have total := accounts.total
    dsimp only
    rw [owned_append]
    omega
  · intro waits
    have some : permits.waiters ≠ [] := by
      rintro none
      rw [none] at claims
      simp_all
    dsimp only
    rw [accounts.idle some, leftOver waits]
  · intro waiter member
    rcases List.mem_append.mp member with old | new
    · exact accounts.served waiter old
    · exact servedNow waiter new
  · exact ticketsAfter.nodup_iff.mpr accounts.tickets
  · intro waiter member
    have ticket := ticketsAfter.mem_iff.mp (List.mem_map_of_mem member)
    obtain ⟨before, known, same⟩ := List.mem_map.mp ticket
    dsimp only
    rw [← same]
    exact accounts.older before known

/-- Permits that are free are taken at once. -/
theorem acquire_none {wanted : Nat} {after : Permits}
    (accounts : permits.Accounts capacity atLarge holdings)
    (acquired : permits.acquire wanted = (after, none)) :
    after.Accounts capacity (atLarge + wanted) holdings := by
  unfold Permits.acquire at acquired
  split at acquired
  · cases acquired
    refine { accounts with total := ?_, idle := ?_ }
    · have total := accounts.total
      dsimp only
      omega
    · intro waits
      have none := accounts.idle waits
      dsimp only
      omega
  · cases acquired

/-- Whoever asks for more than are free gets a ticket. -/
theorem acquire_some {wanted number : Nat} {after : Permits}
    (accounts : permits.Accounts capacity atLarge holdings) (bounded : wanted ≤ capacity)
    (acquired : permits.acquire wanted = (after, some number)) :
    after.Accounts capacity atLarge (.ticket number wanted :: holdings) := by
  unfold Permits.acquire at acquired
  split at acquired
  · cases acquired
  · rename_i tooFew
    cases acquired
    have total := accounts.total
    have added : ∀ waiter : Waiter, ((permits.waiters ++ [waiter]) ++ permits.served).Perm
        (waiter :: (permits.waiters ++ permits.served)) := by
      intro waiter
      rw [List.append_assoc]
      exact List.perm_middle
    refine ⟨?_, ⟨?_, ?_⟩, fun _ => rfl, accounts.served, ?_, ?_, ?_⟩
    · dsimp only
      rw [owned_append]
      simp only [owned, List.map_cons, List.map_nil, List.sum_cons, List.sum_nil, Waiter.owned,
        Holding.permits] at total ⊢
      omega
    · intro waiter member
      rcases List.mem_append.mp member with old | new
      · exact accounts.inLine.missing waiter old
      · rw [List.mem_singleton.mp new]
        dsimp only
        omega
    · intro waiter member
      cases waiters : permits.waiters with
      | nil =>
        rw [waiters] at member
        cases member
      | cons first rest =>
        rw [waiters] at member
        rcases List.mem_append.mp member with old | new
        · exact accounts.inLine.behind waiter (by rw [waiters]; exact old)
        · have none := accounts.idle (by rw [waiters]; exact List.cons_ne_nil _ _)
          rw [List.mem_singleton.mp new, Waiter.owned]
          dsimp only
          omega
    · exact ((added _).map _).trans (accounts.claims.cons _)
    · refine ((added _).map _).nodup_iff.mpr
        (List.nodup_cons.mpr ⟨fun member => ?_, accounts.tickets⟩)
      obtain ⟨waiter, known, same⟩ := List.mem_map.mp member
      exact Nat.lt_irrefl _ (same ▸ accounts.older waiter known)
    · intro waiter member
      rcases List.mem_cons.mp ((added _).mem_iff.mp member) with rfl | old
      · exact Nat.lt_succ_self _
      · exact Nat.lt_succ_of_lt (accounts.older waiter old)

/-- Whoever holds a ticket waits or has been served. -/
theorem exists_waiter {number wanted : Nat}
    (accounts : permits.Accounts capacity atLarge (.ticket number wanted :: holdings)) :
    ∃ waiter ∈ permits.waiters ++ permits.served,
      waiter.ticket = number ∧ waiter.wanted = wanted := by
  have claimed : (number, wanted) ∈ (permits.waiters ++ permits.served).map Waiter.claim :=
    accounts.claims.mem_iff.mpr List.mem_cons_self
  obtain ⟨waiter, present, isClaim⟩ := List.mem_map.mp claimed
  exact ⟨waiter, present, congrArg Prod.fst isClaim, congrArg Prod.snd isClaim⟩

theorem eq_of_ticket_eq (accounts : permits.Accounts capacity atLarge holdings)
    {waiter other : Waiter} (member : waiter ∈ permits.waiters ++ permits.served)
    (member' : other ∈ permits.waiters ++ permits.served) (same : waiter.ticket = other.ticket) :
    waiter = other :=
  List.inj_on_of_nodup_map accounts.tickets member member' same

theorem ownedBy_ticket (accounts : permits.Accounts capacity atLarge holdings) {waiter : Waiter}
    (member : waiter ∈ permits.waiters ++ permits.served) :
    permits.ownedBy waiter.ticket = waiter.owned := by
  unfold ownedBy
  cases found : (permits.waiters ++ permits.served).find? fun other =>
      other.ticket = waiter.ticket with
  | none => exact absurd (decide_eq_true rfl) (List.find?_eq_none.mp found waiter member)
  | some other =>
    have same : other.ticket = waiter.ticket := by simpa using List.find?_some found
    rw [accounts.eq_of_ticket_eq (List.mem_of_find?_eq_some found) member same]
    rfl

/-- Without a ticket, what it owned is at large. -/
theorem without {number wanted : Nat}
    (accounts : permits.Accounts capacity atLarge (.ticket number wanted :: holdings)) :
    ({ permits with
        waiters := permits.waiters.filter fun waiter => waiter.ticket ≠ number
        served := permits.served.filter fun waiter => waiter.ticket ≠ number } : Permits).Accounts
      capacity (atLarge + permits.ownedBy number) holdings := by
  obtain ⟨waiter, member, rfl, rfl⟩ := accounts.exists_waiter
  have apart := perm_cons_filter accounts.tickets member
  rw [List.filter_append] at apart
  rw [accounts.ownedBy_ticket member]
  have kept : ∀ {other : Waiter}, other ∈ (permits.waiters.filter fun other =>
      other.ticket ≠ waiter.ticket) ++ (permits.served.filter fun other =>
        other.ticket ≠ waiter.ticket) → other ∈ permits.waiters ++ permits.served :=
    fun present => apart.mem_iff.mpr (List.mem_cons_of_mem _ present)
  refine ⟨?_, ⟨?_, ?_⟩, ?_, ?_, ?_, ?_, ?_⟩
  · have total := accounts.total
    have split := (apart.map Waiter.owned).sum_eq
    simp only [owned, List.map_append, List.sum_append, List.map_cons, List.sum_cons,
      Holding.permits] at total split ⊢
    omega
  · exact fun other present => accounts.inLine.missing other (List.mem_of_mem_filter present)
  · intro other present
    refine accounts.inLine.behind other ?_
    cases waiters : permits.waiters with
    | nil => simp [waiters] at present
    | cons first rest =>
      rw [waiters, List.filter_cons] at present
      split at present
      · exact List.mem_of_mem_filter present
      · exact List.mem_of_mem_filter (List.mem_of_mem_tail present)
  · intro waits
    refine accounts.idle fun none => waits ?_
    rw [none]
    rfl
  · exact fun other present => accounts.served other (List.mem_of_mem_filter present)
  · exact ((apart.map Waiter.claim).symm.trans accounts.claims).cons_inv
  · exact (List.nodup_cons.mp ((apart.map Waiter.ticket).nodup_iff.mp accounts.tickets)).2
  · exact fun other present => accounts.older other (kept present)

/-- A ticket that misses nothing is taken up. -/
theorem takeUp {number wanted : Nat} {after : Permits}
    (accounts : permits.Accounts capacity atLarge (.ticket number wanted :: holdings))
    (taken : permits.takeUp? number = some after) :
    after.Accounts capacity (atLarge + wanted) holdings := by
  unfold takeUp? at taken
  split at taken
  · rename_i known
    cases taken
    obtain ⟨waiter, isServed, ticket⟩ := List.any_eq_true.mp known
    have ticket : waiter.ticket = number := by simpa using ticket
    subst ticket
    have member : waiter ∈ permits.waiters ++ permits.served := List.mem_append_right _ isServed
    obtain ⟨other, present, same, rfl⟩ := accounts.exists_waiter
    obtain rfl := accounts.eq_of_ticket_eq present member same
    have owns : permits.ownedBy other.ticket = other.wanted := by
      rw [accounts.ownedBy_ticket member, Waiter.owned, (accounts.served other isServed).1,
        Nat.sub_zero]
    have waiting : permits.waiters.filter (fun waiter => waiter.ticket ≠ other.ticket) =
        permits.waiters := by
      refine List.filter_eq_self.mpr fun waiter waits => decide_eq_true fun same => ?_
      obtain rfl := accounts.eq_of_ticket_eq (List.mem_append_left _ waits) member same
      exact absurd (accounts.served waiter isServed).1 (accounts.inLine.missing waiter waits).1.ne'
    have rest := accounts.without
    rwa [owns, waiting] at rest
  · cases taken

/-- A ticket is given up, and what it owned goes to others. -/
theorem giveUp {number wanted : Nat}
    (accounts : permits.Accounts capacity atLarge (.ticket number wanted :: holdings)) :
    (permits.giveUp number).Accounts capacity atLarge holdings :=
  accounts.without.release

/-- What is owned by the tickets that are held is all that waiters own. -/
theorem sum_ownedBy (accounts : permits.Accounts capacity atLarge holdings) :
    ((holdings.filterMap Holding.ticket?).map fun claim => permits.ownedBy claim.1).sum =
      owned permits.waiters + owned permits.served := by
  have each : (permits.waiters ++ permits.served).map
      ((fun claim => permits.ownedBy claim.1) ∘ Waiter.claim) =
        (permits.waiters ++ permits.served).map Waiter.owned :=
    List.map_congr_left fun waiter member => accounts.ownedBy_ticket member
  rw [← (accounts.claims.map _).sum_eq, List.map_map, each, ← owned_append]
  rfl

/-- Not everybody misses permits: the first in line would own all of them. -/
theorem eq_nil_of_missing (accounts : permits.Accounts capacity 0 holdings)
    (missing : ∀ holding ∈ holdings, ∃ number wanted,
      holding = .ticket number wanted ∧ permits.takeUp? number = none) : holdings = [] := by
  have unserved : permits.served = [] := by
    refine List.eq_nil_iff_forall_not_mem.mpr fun waiter member => ?_
    have claimed : waiter.claim ∈ holdings.filterMap Holding.ticket? :=
      accounts.claims.mem_iff.mp (List.mem_map_of_mem (List.mem_append_right _ member))
    obtain ⟨holding, present, isClaim⟩ := List.mem_filterMap.mp claimed
    obtain ⟨number, wanted, rfl, none⟩ := missing holding present
    have same : number = waiter.ticket := congrArg Prod.fst (Option.some.inj isClaim)
    unfold takeUp? at none
    rw [if_pos (List.any_eq_true.mpr ⟨waiter, member, by simp [same]⟩)] at none
    cases none
  have resting : (holdings.map Holding.permits).sum = 0 := by
    refine List.sum_eq_zero fun count member => ?_
    obtain ⟨holding, present, rfl⟩ := List.mem_map.mp member
    obtain ⟨number, wanted, rfl, _⟩ := missing holding present
    rfl
  have total := accounts.total
  rw [unserved, resting] at total
  cases waiters : permits.waiters with
  | nil =>
    have claims := accounts.claims
    rw [waiters, unserved] at claims
    have none : holdings.filterMap Holding.ticket? = [] := claims.symm.eq_nil
    refine List.eq_nil_iff_forall_not_mem.mpr fun holding present => ?_
    obtain ⟨number, wanted, rfl, _⟩ := missing holding present
    exact absurd (List.filterMap_eq_nil_iff.mp none _ present) (by simp [Holding.ticket?])
  | cons first rest =>
    obtain ⟨misses, _, bounded⟩ := accounts.inLine.missing first (by simp [waiters])
    have behind : owned rest = 0 := by
      refine List.sum_eq_zero fun count member => ?_
      obtain ⟨waiter, present, rfl⟩ := List.mem_map.mp member
      exact accounts.inLine.behind waiter (by simpa [waiters] using present)
    have idle := accounts.idle (by simp [waiters])
    rw [waiters, idle] at total
    simp only [owned, List.map_cons, List.sum_cons, List.map_nil, List.sum_nil,
      Waiter.owned] at total behind
    omega

end Accounts

end Permits

/-! Jobs and drains -/

/-- Whether the permits of a queue are all where they should be. -/
structure Queue.Accounts (queue : Queue) (holdings : List Holding) : Prop where
  positive : 0 < queue.capacity
  permits : queue.permits.Accounts queue.capacity 0 holdings

theorem Queue.Accounts.of_perm {queue : Queue} {holdings other : List Holding}
    (accounts : queue.Accounts holdings) (perm : other.Perm holdings) : queue.Accounts other :=
  ⟨accounts.positive, accounts.permits.of_perm perm⟩

theorem Queue.accounts_ofLimit (limit : Nat) : (Queue.ofLimit limit).Accounts [] := by
  refine ⟨?_, Permits.Accounts.ofCount _⟩
  have large : 0 < maxCapacity := by decide
  simp only [Queue.ofLimit]
  omega

/-- What a run holds of its queue. -/
def Run.holdings {α : Type} : Run α → List Holding
  | fresh _ => []
  | waiting number _ => [.ticket number 1]
  | running _ => [.running]

/-- What a drain holds of a queue of so many permits. -/
def Drain.holdings (capacity : Nat) : Drain → List Holding
  | fresh => []
  | waiting number => [.ticket number capacity]

namespace Run

variable {α : Type} {queue : Queue} {holdings : List Holding}

def holdingsAfter : RunStep α → List Holding
  | .more run => run.holdings
  | .done _ => []

theorem accounts_advance (positive : 0 < queue.capacity)
    (accounts : queue.permits.Accounts queue.capacity 1 holdings) (job : Job α) :
    (advance queue job).1.capacity = queue.capacity ∧
      (advance queue job).1.Accounts (holdingsAfter (advance queue job).2.2 ++ holdings) := by
  unfold advance
  split
  · have atLarge : queue.permits.Accounts queue.capacity (0 + 1) holdings := accounts
    exact ⟨rfl, positive, atLarge.release⟩
  · exact ⟨rfl, positive, Permits.Accounts.running_iff.mpr accounts⟩

/-- A poll of a run loses no permit. -/
theorem accounts_poll (run : Run α) (accounts : queue.Accounts (run.holdings ++ holdings)) :
    (run.poll queue).1.capacity = queue.capacity ∧
      (run.poll queue).1.Accounts (holdingsAfter (run.poll queue).2.2 ++ holdings) := by
  obtain ⟨positive, accounts⟩ := accounts
  have started : ∀ {permits : Permits}, permits.Accounts queue.capacity 1 holdings → ∀ job : Job α,
      (start { queue with permits } job).1.capacity = queue.capacity ∧
        (start { queue with permits } job).1.Accounts
          (holdingsAfter (start { queue with permits } job).2.2 ++ holdings) :=
    fun {permits} accounts job =>
      @accounts_advance α { queue with permits } holdings positive accounts job
  cases run with
  | fresh job =>
    rw [poll]
    split
    · exact ⟨rfl, positive, accounts⟩
    · split
      · rename_i permits acquired
        exact started (accounts.acquire_none acquired) job
      · rename_i permits number acquired
        exact ⟨rfl, positive, accounts.acquire_some positive acquired⟩
  | waiting number job =>
    rw [poll]
    split
    · rename_i permits taken
      exact started (accounts.takeUp taken) job
    · exact ⟨rfl, positive, accounts⟩
  | running job =>
    rw [poll]
    exact accounts_advance positive (Permits.Accounts.running_iff.mp accounts) job

/-- Dropping a run loses no permit. -/
theorem accounts_drop (run : Run α) (accounts : queue.Accounts (run.holdings ++ holdings)) :
    (run.drop queue).capacity = queue.capacity ∧ (run.drop queue).Accounts holdings := by
  obtain ⟨positive, accounts⟩ := accounts
  cases run with
  | fresh job => exact ⟨rfl, positive, accounts⟩
  | waiting number job => exact ⟨rfl, positive, accounts.giveUp⟩
  | running job =>
    have atLarge : queue.permits.Accounts queue.capacity (0 + 1) holdings :=
      Permits.Accounts.running_iff.mp accounts
    exact ⟨rfl, positive, atLarge.release⟩

end Run

namespace Drain

variable {queue : Queue} {holdings : List Holding}

def holdingsAfter (capacity : Nat) : Option Drain → List Holding
  | some drain => drain.holdings capacity
  | none => []

/-- A poll of a drain loses no permit. -/
theorem accounts_poll (drain : Drain)
    (accounts : queue.Accounts (drain.holdings queue.capacity ++ holdings)) :
    (drain.poll queue).1.capacity = queue.capacity ∧
      (drain.poll queue).1.Accounts
        (holdingsAfter queue.capacity (drain.poll queue).2 ++ holdings) := by
  obtain ⟨positive, accounts⟩ := accounts
  have finished : ∀ {queue : Queue} {permits : Permits}, 0 < queue.capacity →
      permits.Accounts queue.capacity (0 + queue.capacity) holdings →
        (finish queue permits).capacity = queue.capacity ∧
          (finish queue permits).Accounts holdings :=
    fun positive accounts => ⟨rfl, positive, accounts.release⟩
  cases drain with
  | fresh =>
    rw [poll]
    dsimp only
    split
    · rename_i permits acquired
      exact @finished { queue with drains := queue.drains + 1 } permits positive
        (accounts.acquire_none acquired)
    · rename_i permits number acquired
      exact ⟨rfl, positive, accounts.acquire_some le_rfl acquired⟩
  | waiting number =>
    rw [poll]
    split
    · rename_i permits taken
      exact finished positive (accounts.takeUp taken)
    · exact ⟨rfl, positive, accounts⟩

/-- Dropping a drain loses no permit. -/
theorem accounts_drop (drain : Drain)
    (accounts : queue.Accounts (drain.holdings queue.capacity ++ holdings)) :
    (drain.drop queue).capacity = queue.capacity ∧ (drain.drop queue).Accounts holdings := by
  obtain ⟨positive, accounts⟩ := accounts
  cases drain with
  | fresh => exact ⟨rfl, positive, accounts⟩
  | waiting number => exact ⟨rfl, positive, accounts.giveUp⟩

/-- A drain that is over has had all permits, so no job was running. -/
theorem sum_permits_of_poll_eq_none (drain : Drain)
    (accounts : queue.Accounts (drain.holdings queue.capacity ++ holdings))
    (isOver : (drain.poll queue).2 = none) : (holdings.map Holding.permits).sum = 0 := by
  obtain ⟨_, accounts⟩ := accounts
  suffices hasAll : ∃ permits : Permits,
      permits.Accounts queue.capacity (0 + queue.capacity) holdings by
    obtain ⟨permits, all⟩ := hasAll
    have total := all.total
    omega
  cases drain with
  | fresh =>
    rw [poll] at isOver
    dsimp only at isOver
    split at isOver
    · rename_i permits acquired
      exact ⟨permits, accounts.acquire_none acquired⟩
    · cases isOver
  | waiting number =>
    rw [poll] at isOver
    split at isOver
    · rename_i permits taken
      exact ⟨permits, accounts.takeUp taken⟩
    · cases isOver

end Drain

end StyleBlock
