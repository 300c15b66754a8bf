/-!
# Protocol revisions

Fields were added to packets over time, each from some revision on. Both sides use the smaller of
their two revisions, so a field is present exactly when that revision has reached it.
-/

namespace Columnar

/-- Fields and sections that not every revision has. -/
inductive Feature where
  | temporaryTables
  | totalRowsInProgress
  | blockInfo
  | clientInfo
  | serverTimezone
  | quotaKeyInClientInfo
  deriving DecidableEq, Repr

/-- All features, in the order in which they are listed. -/
def Feature.all : List Feature :=
  [.temporaryTables, .totalRowsInProgress, .blockInfo, .clientInfo, .serverTimezone,
    .quotaKeyInClientInfo]

/-- The first revision that has the feature. -/
def Feature.since : Feature → UInt64
  | .temporaryTables => 50264
  | .totalRowsInProgress => 51554
  | .blockInfo => 51903
  | .clientInfo => 54032
  | .serverTimezone => 54058
  | .quotaKeyInClientInfo => 54060

/-- A revision of the protocol. -/
structure Revision where
  number : UInt64
  deriving DecidableEq, Repr, Inhabited

namespace Revision

/-- The revision that this client speaks. -/
def client : Revision := ⟨54126⟩

/-- The revision that both sides use: a server's own one, but never more than the client's. -/
def negotiate (server : UInt64) : Revision := ⟨min server client.number⟩

/-- The revision has the feature. -/
def supports (r : Revision) (f : Feature) : Bool := decide (f.since ≤ r.number)

/-- The features that the revision has. -/
def features (r : Revision) : List Feature := Feature.all.filter r.supports

/-- The revision as text. -/
def text (r : Revision) : String := toString r.number.toNat

end Revision

end Columnar
