import Marginalia.Catalog

/-!
# Reads

The reads of files that jobs have asked for, in the order in which they were asked for.  A limit
bounds how many of them are under way; the others wait for their turn in order (`Indexer.grant`).

Main statements: `running_grant_le`, the reads under way keep the limit; `length_grantSome_le`, no
more reads are started than there are free turns.
-/

namespace Marginalia

/-- A number by which a job is known. -/
abbrev JobId := Nat

/-- A number by which a read is known. -/
abbrev Ticket := Nat

namespace Indexer

/-- How far a read is. -/
inductive Progress where
  /-- It waits for its turn. -/
  | waiting
  /-- It is under way. -/
  | running
  | ended (found : Catalog.Found)
deriving Inhabited

/-- A read of a file, for a job and a vocabulary. -/
structure Read where
  ticket : Ticket
  job : JobId
  path : Text
  vocabulary : Vocabulary
  progress : Progress := .waiting
deriving Inhabited

/-- Whether a read waits for its turn. -/
def Read.isWaiting (read : Read) : Bool :=
  match read.progress with
  | .waiting => true
  | _ => false

/-- Whether a read is under way. -/
def Read.isRunning (read : Read) : Bool :=
  match read.progress with
  | .running => true
  | _ => false

/-- What was found by a read that has ended. -/
def Read.found? (read : Read) : Option Catalog.Found :=
  match read.progress with
  | .ended found => some found
  | _ => none

/-- How many reads are under way. -/
def running (reads : List Read) : Nat := reads.countP Read.isRunning

/-- Starts waiting reads in order, at most so many; gives the started ones as well. -/
def grantSome : (free : Nat) → List Read → List Read × List Read
  | 0, reads => (reads, [])
  | _, [] => ([], [])
  | free + 1, read :: rest =>
    if read.isWaiting then
      let started := { read with progress := .running }
      let (reads, others) := grantSome free rest
      (started :: reads, started :: others)
    else
      let (reads, started) := grantSome (free + 1) rest
      (read :: reads, started)

/-- Starts waiting reads as far as the limit allows. -/
def grant (limit : Nat) (reads : List Read) : List Read × List Read :=
  grantSome (limit - running reads) reads

/-- Starting reads takes no more turns than are free. -/
theorem running_grantSome (free : Nat) (reads : List Read) :
    running (grantSome free reads).1 ≤ running reads + free := by
  induction reads generalizing free with
  | nil => cases free <;> simp [grantSome, running]
  | cons read rest ih =>
    cases free with
    | zero => simp [grantSome]
    | succ free =>
      unfold grantSome
      by_cases hw : read.isWaiting
      · have hr : read.isRunning = false := by
          unfold Read.isWaiting at hw
          unfold Read.isRunning
          split at hw <;> simp_all
        have := ih free
        simp only [hw, if_true, running, List.countP_cons, hr] at this ⊢
        simp only [Read.isRunning, if_true] at this ⊢
        simp
        omega
      · have := ih (free + 1)
        simp only [hw, running, List.countP_cons, Bool.false_eq_true, if_false] at this ⊢
        omega

/-- No more reads are started than there are free turns. -/
theorem length_grantSome_le (free : Nat) (reads : List Read) :
    (grantSome free reads).2.length ≤ free := by
  induction reads generalizing free with
  | nil => cases free <;> simp [grantSome]
  | cons read rest ih =>
    cases free with
    | zero => simp [grantSome]
    | succ free =>
      unfold grantSome
      by_cases hw : read.isWaiting
      · simpa [hw] using ih free
      · simpa [hw] using ih (free + 1)

/-- The reads under way keep the limit. -/
theorem running_grant_le {limit : Nat} {reads : List Read} (h : running reads ≤ limit) :
    running (grant limit reads).1 ≤ limit := by
  have := running_grantSome (limit - running reads) reads
  unfold grant
  omega

end Indexer

end Marginalia
