import Columnar.Proofs.Block.Forms
import Columnar.Proofs.ByteStream.Obliging

/-!
# Loading values into a column

To load is to read one value, to put it behind those that the column holds, and to load the others
(`load_succ`). So loading can be broken off after any value and gone on with later (`load_add`), and
where it fails it has loaded the values before the one that cannot be read (`load_error_inv`). Main
statement: `load_exact`.
-/

namespace Columnar

open ByteStream Wire Decoder Spells

/-- Values that are there before the reading stay in front of those that are read. -/
lemma Wire.Decoder.manyOnto_append {ρ : Type} [Reader ρ] {ε α : Type} (d : Decoder ρ ε α) (n : Nat)
    (held got : Array α) (r : ρ) :
    manyOnto d n (held ++ got) r =
      (((manyOnto d n got r).1.map (held ++ ·)).mapError fun (e, read) => (e, held ++ read),
        (manyOnto d n got r).2) := by
  induction n generalizing got r with
  | zero => rfl
  | succ n ih =>
    obtain ⟨result, r₁, run⟩ : ∃ result r₁, d.run r = (result, r₁) := ⟨_, _, rfl⟩
    cases result with
    | ok a => simp only [manyOnto, run, ← Array.append_push, ih]
    | error e =>
      simp only [manyOnto, run]
      rfl

namespace Column

section

variable {ρ : Type} [Reader ρ] {t : ColumnType}

/-- Loading is reading many values behind those that the column holds. -/
lemma run_load (held : Array t.Value) (n : Nat) (r : ρ) :
    (load n ⟨t, held⟩ : Decoder ρ (Error × Column) Column).run r =
      (((manyOnto t.kind.decode n held r).1.map (mk t)).mapError fun (e, read) => (e, mk t read),
        (manyOnto t.kind.decode n held r).2) := by
  have whole := manyOnto_append (t.kind.decode : Decoder ρ Error t.Value) n held #[] r
  rw [Array.append_empty] at whole
  obtain ⟨result, s, run⟩ : ∃ result s,
      ((t.kind.decode : Decoder ρ Error t.Value).many n).run r = (result, s) := ⟨_, _, rfl⟩
  have goes : manyOnto (t.kind.decode : Decoder ρ Error t.Value) n #[] r = (result, s) := run
  rw [whole, goes]
  cases result with
  | ok values => exact run_bind_ok (run_mapError run)
  | error e => exact run_bind_error (run_mapError run)

/-- To load nothing leaves the column as it is. -/
lemma load_zero (held : Array t.Value) :
    (load 0 ⟨t, held⟩ : Decoder ρ (Error × Column) Column) = .pure ⟨t, held⟩ :=
  eq_of_run fun r => run_load held 0 r

/-- To load is to read one value and then to load the others behind it. -/
lemma load_succ (held : Array t.Value) (n : Nat) :
    (load (n + 1) ⟨t, held⟩ : Decoder ρ (Error × Column) Column) =
      t.kind.decode.mapError (fun e => (e, ⟨t, held⟩)) >>= fun v => load n ⟨t, held.push v⟩ := by
  apply eq_of_run
  intro r
  obtain ⟨result, r₁, run⟩ : ∃ result r₁, (t.kind.decode : Decoder ρ Error t.Value).run r =
    (result, r₁) := ⟨_, _, rfl⟩
  rw [run_load, manyOnto]
  cases result with
  | ok v => rw [run_bind_ok (run_mapError run), run_load, run]
  | error e =>
    rw [run_bind_error (run_mapError run), run]
    rfl

/-- Loading can be broken off and gone on with. -/
lemma load_add (held : Array t.Value) (n m : Nat) :
    (load (n + m) ⟨t, held⟩ : Decoder ρ (Error × Column) Column) =
      load n ⟨t, held⟩ >>= load m := by
  induction n generalizing held with
  | zero =>
    rw [Nat.zero_add, load_zero]
    rfl
  | succ n ih =>
    rw [Nat.succ_add, load_succ, load_succ, bind_bind]
    exact congrArg _ (funext fun v => ih (held.push v))

/-- A value in front of others is pushed before they are appended. -/
lemma append_cons (held : Array t.Value) (v : t.Value) (values : List t.Value) :
    held ++ (v :: values).toArray = held.push v ++ values.toArray :=
  Array.ext' (by simp)

/-- Where loading fails, the values before have been loaded and the next one cannot be read. -/
lemma load_error_inv {n : Nat} {held : Array t.Value} {c : Column} {r s : ρ} {e : Error}
    (run : (load n ⟨t, held⟩).run r = (.error (e, c), s)) :
    ∃ (values : List t.Value) (mid : ρ), c = ⟨t, held ++ values.toArray⟩ ∧ values.length < n ∧
      (load values.length ⟨t, held⟩).run r = (.ok c, mid) ∧
      t.kind.decode.run mid = (.error e, s) := by
  -- The reader in front of the value that fails is found where the loop stood.
  induction n generalizing held r with
  | zero =>
    rw [load_zero] at run
    cases run
  | succ n ih =>
    rw [load_succ] at run
    rcases run_bind_inv run with ⟨v, r₁, first, goes⟩ | ⟨_, first, eq⟩
    · obtain ⟨values, mid, rfl, few, loaded, fails⟩ := ih goes
      refine ⟨v :: values, mid, ?_, Nat.succ_lt_succ few, ?_, fails⟩
      · rw [append_cons]
      · rw [List.length_cons, load_succ, run_bind_ok first]
        exact loaded
    · obtain ⟨result, fails, renamed⟩ := run_mapError_inv first
      cases eq
      cases result with
      | ok v => cases renamed
      | error e' =>
        cases renamed
        refine ⟨[], r, ?_, n.succ_pos, ?_, fails⟩
        · rw [Array.append_empty]
        · rw [List.length_nil, load_zero]
          rfl

end

/-- The stored form of words has as many bytes as their number says. -/
lemma length_flatMap_encodeWord {width : Nat} (ws : List (BitVec (8 * width))) :
    (ws.flatMap encodeWord).length = ws.length * width := by
  induction ws with
  | nil => exact (Nat.zero_mul width).symm
  | cons w ws ih =>
    have first : (encodeWord w).length = width := length_littleEndian width w.toNat
    rw [List.flatMap_cons, List.length_append, ih, first, List.length_cons, Nat.add_comm]
    exact (Nat.succ_mul ws.length width).symm

/-- Over an obliging sink a column is saved whole. -/
lemma save_obliging (c : Column) {sink : Sink} (obliging : sink.Obliging) :
    ∃ sink', c.save sink = (.ok (), sink') ∧ sink'.accepted = sink.accepted ++ c.encode := by
  obtain ⟨sink', writes, accepted, _⟩ := obliging.writeAll c.encode
  refine ⟨sink', ?_, accepted⟩
  rw [save, writes]
  rfl

/-- What has been put behind the same values is the same. -/
lemma eq_of_append_eq {t : ColumnType} {held : Array t.Value} {values values' : List t.Value}
    (same : (⟨t, held ++ values.toArray⟩ : Column) = ⟨t, held ++ values'.toArray⟩) :
    values = values' := by
  rw [mk.injEq] at same
  have lists := congrArg Array.toList (eq_of_heq same.2)
  rw [Array.toList_append, Array.toList_append] at lists
  exact List.append_cancel_left lists

variable {ρ : Type} [Reader ρ] [Observable ρ]

/-- To load `n` values and then `m` is to load `n + m`. Over every stream `n` values are loaded
exactly if it begins with a spelling of so many, no more of it is used, and they come behind what the
column holds. If loading fails, the column has got the values with which the stream begins, up to one
that cannot be read. To save the values that have been loaded gives bytes from which the same values
are loaded, and these are the very bytes that were used, `n` times the width, where the values are of
fixed width. -/
theorem load_exact (t : ColumnType) (held : Array t.Value) (n : Nat) (input : ρ) :
    (∀ m, (load (n + m) ⟨t, held⟩ : Decoder ρ (Error × Column) Column) =
      load n ⟨t, held⟩ >>= load m) ∧
    ∃ found input', (load n ⟨t, held⟩).run input = (found, input') ∧
      (∀ c rest, found = .ok c ∧ unread input' = rest ↔
        ∃ values : List t.Value, c = ⟨t, held ++ values.toArray⟩ ∧ values.length = n ∧
          Begins (Listed t.kind.Form) (unread input) rest values) ∧
      (∀ e c, found = .error (e, c) → ∃ (values : List t.Value) (mid : ρ),
        c = ⟨t, held ++ values.toArray⟩ ∧ values.length < n ∧
          (load values.length ⟨t, held⟩).run input = (.ok c, mid) ∧
          Begins (Listed t.kind.Form) (unread input) (unread mid) values ∧
          (¬∃ v rest, Begins t.kind.Form (unread mid) rest v) ∧
          t.kind.decode.run mid = (.error e, input')) ∧
      ∀ (values : List t.Value) (bs : Bytes) (sink : Sink),
        found = .ok ⟨t, held ++ values.toArray⟩ → unread input = .ofBytes bs ++ unread input' →
        sink.Obliging →
        ∃ sink' saved, save ⟨t, values.toArray⟩ sink = (.ok (), sink') ∧
          sink'.accepted = sink.accepted ++ saved ∧
          (∀ s, t = .scalar s → saved = bs ∧ bs.length = n * s.width) ∧
          ∀ (copy : ρ) (rest : Feed), unread copy = .ofBytes saved ++ rest →
            ∃ copy', (load n (empty t)).run copy = (.ok ⟨t, values.toArray⟩, copy') ∧
              unread copy' = rest := by
  obtain ⟨found, input', run⟩ : ∃ found input',
      (load n ⟨t, held⟩ : Decoder ρ _ _).run input = (found, input') := ⟨_, _, rfl⟩
  have spells := spells_load_onto (ρ := ρ) held n
  refine ⟨load_add held n, found, input', run, fun c rest => ?whole, ?broken,
    fun values bs sink ok here obliging => ?saved⟩
  case whole =>
    rw [spells.ok_iff run]
    constructor
    · rintro ⟨bs, here, values, rfl, count, listed⟩
      exact ⟨values, rfl, count, bs, here, listed⟩
    · rintro ⟨values, rfl, count, bs, here, listed⟩
      exact ⟨bs, here, values, rfl, count, listed⟩
  case broken =>
    rintro e c rfl
    obtain ⟨values, mid, rfl, few, loaded, fails⟩ := load_error_inv run
    obtain ⟨bs, here, values', same, _, listed⟩ :=
      (spells_load_onto held values.length).sound loaded
    obtain rfl := eq_of_append_eq same
    refine ⟨values, mid, rfl, few, loaded, ⟨bs, here, listed⟩, ?_, fails⟩
    rintro ⟨v, rest, begins⟩
    obtain ⟨never, _⟩ := (t.kind.spells_decode.ok_iff fails).2 begins
    cases never
  case saved =>
    subst ok
    obtain ⟨bs', here', values', same, rfl, listed⟩ := spells.sound run
    obtain rfl := eq_of_append_eq same
    obtain rfl := Feed.ofBytes_inj.1 (List.append_cancel_right (here.symm.trans here'))
    obtain ⟨sink', saves, accepted⟩ := save_obliging ⟨t, values.toArray⟩ obliging
    refine ⟨sink', _, saves, accepted, ?_, fun copy rest there => ?_⟩
    -- Only words have one spelling, so only their bytes come back as they were.
    · rintro s rfl
      have spelt : bs = values.flatMap encodeWord := listed.eq_flatMap
      refine ⟨spelt.symm, ?_⟩
      rw [spelt]
      exact length_flatMap_encodeWord values
    · have fits : Fits ⟨t, values.toArray⟩ := by
        intro v mem
        obtain ⟨_, spelt⟩ := listed.exists_of_mem v mem
        exact spelt.fits
      exact (reads_load_empty fits).whole there

/-- Two texts, the length of the second spelt longer than need be, and the beginning of a third. -/
def curtailed : Bytes := [1, 0x62, 0x81, 0, 0x63, 2, 0xC3]

/-- Of three texts two are loaded behind the one that is there, and they are saved as fewer bytes than
they were loaded from. Of the same bytes as words each one comes back. -/
theorem load_exact_curtailed :
    ((∃ input', (load 3 ⟨.text, #["a"]⟩ : Decoder Feed _ _).run (.ofBytes curtailed) =
        (.error (.truncated, ⟨.text, #["a", "b", "c"]⟩), input')) ∧
      ∃ mid : Feed, unread mid = .ofBytes [2, 0xC3] ∧
        ¬∃ s rest, Begins TextForm (unread mid) rest s) ∧
    (∃ sink', save ⟨.text, #["b", "c"]⟩ {} = (.ok (), sink') ∧
      ∃ copy', (load 2 (empty .text) : Decoder Feed _ _).run (.ofBytes sink'.accepted) =
        (.ok ⟨.text, #["b", "c"]⟩, copy') ∧ unread copy' = []) ∧
    ∃ sink', save ⟨.scalar .uint16, #[0x6201#16, 0x81#16]⟩ {} = (.ok (), sink') ∧
      sink'.accepted = curtailed.take 4 := by
  have obliging : Sink.Obliging {} := ⟨nofun, nofun⟩
  have loads : (load 2 ⟨.text, #["a"]⟩ : Decoder Feed _ _).run (.ofBytes curtailed) =
      (.ok ⟨.text, #["a", "b", "c"]⟩, .ofBytes [2, 0xC3]) := by with_unfolding_all rfl
  refine ⟨?three, ?two, ?words⟩
  case three =>
    obtain ⟨_, found, input', run, _, broken, _⟩ :=
      load_exact (ρ := Feed) .text #["a"] 3 (.ofBytes curtailed)
    have fails : (load 3 ⟨.text, #["a"]⟩ : Decoder Feed _ _).run (.ofBytes curtailed) =
        (.error (.truncated, ⟨.text, #["a", "b", "c"]⟩), []) := by with_unfolding_all rfl
    cases run.symm.trans fails
    obtain ⟨values, mid, same, _, loaded, _, none, _⟩ := broken _ _ rfl
    obtain rfl : values = ["b", "c"] := eq_of_append_eq same.symm
    cases loaded.symm.trans loads
    exact ⟨⟨_, fails⟩, _, Feed.calm_ofBytes _, none⟩
  case two =>
    obtain ⟨_, found, input', run, _, _, saves⟩ :=
      load_exact (ρ := Feed) .text #["a"] 2 (.ofBytes curtailed)
    cases run.symm.trans loads
    obtain ⟨sink', saved, written, accepted, _, again⟩ :=
      saves ["b", "c"] (curtailed.take 5) {} rfl rfl obliging
    obtain rfl : sink'.accepted = saved := accepted
    exact ⟨sink', written, again _ [] (unread_ofBytes _)⟩
  case words =>
    obtain ⟨_, found, input', run, _, _, saves⟩ :=
      load_exact (ρ := Feed) (.scalar .uint16) #[] 2 (.ofBytes curtailed)
    have goes : (load 2 (empty (.scalar .uint16)) : Decoder Feed _ _).run (.ofBytes curtailed) =
        (.ok ⟨.scalar .uint16, #[0x6201#16, 0x81#16]⟩, .ofBytes [0x63, 2, 0xC3]) := by cbv
    cases run.symm.trans goes
    obtain ⟨sink', saved, written, accepted, words, _⟩ :=
      saves [0x6201#16, 0x81#16] (curtailed.take 4) {} rfl rfl obliging
    exact ⟨sink', written, accepted.trans (words .uint16 rfl).1⟩

end Column

end Columnar
