import DocCoverage.Proofs.CommandLine.Shape
import DocCoverage.Proofs.CommandLine.Storing

/-! # Reading options

Options are read before a subcommand and behind it, by two readers that differ only in what
they do where the options end.  `ReadsOptions` states what they share: one field for each
way to look at an argument.  From it follows what one turn does, which reads the arguments
of one option and stores it (`ReadsOptions.turn`), and by induction what a whole run does
(`ReadsOptions.run`).

A value is not stored when it is read, but at the next option or at the end.  This makes no
difference to what is accepted (`ReadsOptions.settled`), so a turn starts with nothing
pending. -/

namespace DocCoverage
namespace Invocation

/-- The option is known on the side. -/
def Side.Knows (side : Side) (item : Item) : Prop := item = .flag .keepGoing → side = .check

/-! ## One argument -/

/-- The options end here: there are no more arguments, or two dashes, or an argument that
is neither an option nor the value of one. -/
inductive Halts (side : Side) : Pending → List String → Prop
  | nil (pending : Pending) : Halts side pending []
  | rest {pending : Pending} {arg : String} {args : List String} (h : shapeOf side arg = .rest) :
      Halts side pending (arg :: args)
  | plain {pending : Pending} {arg : String} {args : List String} (h : shapeOf side arg = .plain)
      (hpending : ∀ slot, pending ≠ .awaited slot) : Halts side pending (arg :: args)

/-- What reading an option by its shape makes of the options stored before it. -/
inductive Reads (s : Options) : Shape → Options × Pending → Prop
  | flag {raised : Flag} {o : Options} (h : s.raise raised = .ok o) :
      Reads s (.flag raised false) (o, .nothing)
  | joined {slot : Slot} {value : String} {o : Options} (h : s.fill slot value = .ok o) :
      Reads s (.slot slot (some value)) (o, .nothing)
  | apart (slot : Slot) : Reads s (.slot slot none) (s, .awaited slot)

/-- An option is read behind a value that can be stored. -/
theorem option_ok_iff {o : Options} {pending : Pending} {shape : Shape}
    {next : Options × Pending} :
    option o pending shape = .ok next ↔ ∃ s, o.settle pending = .ok s ∧ Reads s shape next := by
  constructor
  · intro h
    match shape with
    | .flag raised false =>
      obtain ⟨s, hsettle, h⟩ := bind_eq_ok_iff.mp h
      obtain ⟨o', hraise, ⟨⟩⟩ := bind_eq_ok_iff.mp h
      exact ⟨s, hsettle, .flag hraise⟩
    | .slot slot (some value) =>
      obtain ⟨s, hsettle, h⟩ := bind_eq_ok_iff.mp h
      obtain ⟨o', hfill, ⟨⟩⟩ := bind_eq_ok_iff.mp h
      exact ⟨s, hsettle, .joined hfill⟩
    | .slot slot none =>
      obtain ⟨s, hsettle, ⟨⟩⟩ := bind_eq_ok_iff.mp h
      exact ⟨s, hsettle, .apart slot⟩
    | .help false | .version false => obtain ⟨s, hsettle, ⟨⟩⟩ := bind_eq_ok_iff.mp h
    | .flag raised true | .help true | .version true | .unknown | .rest | .plain => cases h
  · rintro ⟨s, hsettle, hreads⟩
    cases hreads with
    | flag h => exact bind_eq_ok_iff.mpr ⟨s, hsettle, bind_eq_ok_iff.mpr ⟨_, h, rfl⟩⟩
    | joined h => exact bind_eq_ok_iff.mpr ⟨s, hsettle, bind_eq_ok_iff.mpr ⟨_, h, rfl⟩⟩
    | apart slot => exact bind_eq_ok_iff.mpr ⟨s, hsettle, rfl⟩

/-! ## One option -/

variable {α : Type} {side : Side} {Reader : Options → Pending → List String → α → Prop}
  {Stops : Options → List String → α → Prop}

/-- What a reader of options does with an argument by its look.  `Stops` says what it makes
of the arguments at which the options end. -/
structure ReadsOptions (side : Side) (Reader : Options → Pending → List String → α → Prop)
    (Stops : Options → List String → α → Prop) : Prop where
  /-- At the end of the options, what is pending is stored. -/
  halt : ∀ {o pending args result}, Halts side pending args →
    (Reader o pending args result ↔ ∃ s, o.settle pending = .ok s ∧ Stops s args result)
  /-- A plain argument is the value that is awaited. -/
  value : ∀ {o slot arg args result}, shapeOf side arg = .plain →
    (Reader o (.awaited slot) (arg :: args) result ↔ Reader o (.given slot arg) args result)
  /-- Anything else is an option. -/
  option : ∀ {o pending arg args result}, shapeOf side arg ≠ .rest → shapeOf side arg ≠ .plain →
    (Reader o pending (arg :: args) result ↔
      ∃ next, option o pending (shapeOf side arg) = .ok next ∧ Reader next.1 next.2 args result)
  /-- It stops at the end of the options only. -/
  halts : ∀ {o args result}, Stops o args result → Halts side .nothing args

namespace ReadsOptions

/-- Where the options do not end, there is an option or the value that is awaited. -/
theorem halts_or (side : Side) (pending : Pending) (args : List String) :
    Halts side pending args ∨
      (∃ slot arg rest, pending = .awaited slot ∧ args = arg :: rest ∧
        shapeOf side arg = .plain) ∨
      ∃ arg rest, args = arg :: rest ∧ shapeOf side arg ≠ .rest ∧ shapeOf side arg ≠ .plain := by
  cases args with
  | nil => exact Or.inl (.nil pending)
  | cons arg rest =>
    by_cases hrest : shapeOf side arg = .rest
    · exact Or.inl (.rest hrest)
    by_cases hplain : shapeOf side arg = .plain
    · by_cases hpending : ∃ slot, pending = .awaited slot
      · obtain ⟨slot, rfl⟩ := hpending
        exact Or.inr (Or.inl ⟨slot, arg, rest, rfl, rfl, hplain⟩)
      · exact Or.inl (.plain hplain fun slot h => hpending ⟨slot, h⟩)
    · exact Or.inr (Or.inr ⟨arg, rest, rfl, hrest, hplain⟩)

/-- **Storing a value late is storing it at once.** -/
theorem settled (h : ReadsOptions side Reader Stops) {o : Options} {slot : Slot} {text : String}
    {args : List String} {result : α} :
    Reader o (.given slot text) args result ↔
      ∃ s, o.fill slot text = .ok s ∧ Reader s .nothing args result := by
  rcases halts_or side (.given slot text) args with
    hhalt | ⟨slot', arg, rest, ⟨⟩, -, -⟩ | ⟨arg, rest, rfl, hrest, hplain⟩
  · have hhalt' : Halts side .nothing args := by
      cases hhalt with
      | nil => exact .nil _
      | rest h => exact .rest h
      | plain h hpending => exact .plain h nofun
    simp only [h.halt hhalt, h.halt hhalt', Options.settle_nothing, Except.ok.injEq,
      exists_eq_left']
    rfl
  · -- an option stores what is pending before it does anything else
    simp only [h.option hrest hplain, option_ok_iff, Options.settle_nothing, Except.ok.injEq,
      exists_eq_left']
    constructor
    · rintro ⟨next, ⟨s, hs, hreads⟩, hmore⟩
      exact ⟨s, hs, next, hreads, hmore⟩
    · rintro ⟨s, hs, next, hreads, hmore⟩
      exact ⟨next, ⟨s, hs, hreads⟩, hmore⟩

/-- An option that awaits a value takes the next argument, which must be plain. -/
theorem awaited (h : ReadsOptions side Reader Stops) {o : Options} {slot : Slot}
    {args : List String} {result : α} :
    Reader o (.awaited slot) args result ↔
      ∃ text rest s, args = text :: rest ∧ Plain text ∧ o.fill slot text = .ok s ∧
        Reader s .nothing rest result := by
  constructor
  · intro hread
    rcases halts_or side (.awaited slot) args with
      hhalt | ⟨slot', text, rest, ⟨⟩, rfl, hplain⟩ | ⟨arg, rest, rfl, hrest, hplain⟩
    · obtain ⟨s, ⟨⟩, -⟩ := (h.halt hhalt).mp hread
    · obtain ⟨s, hfill, hmore⟩ := h.settled.mp ((h.value hplain).mp hread)
      exact ⟨text, rest, s, rfl, plain_of_shapeOf hplain, hfill, hmore⟩
    · obtain ⟨next, hoption, -⟩ := (h.option hrest hplain).mp hread
      obtain ⟨s, ⟨⟩, -⟩ := option_ok_iff.mp hoption
  · rintro ⟨text, rest, s, rfl, hplain, hfill, hmore⟩
    exact (h.value (shapeOf_plain side hplain)).mpr (h.settled.mpr ⟨s, hfill, hmore⟩)

/-- With nothing pending, the end of the options is reached with what is stored. -/
theorem halt_nothing (h : ReadsOptions side Reader Stops) {o : Options} {args : List String}
    {result : α} (hhalt : Halts side .nothing args) :
    Reader o .nothing args result ↔ Stops o args result := by
  simp only [h.halt hhalt, Options.settle_nothing, Except.ok.injEq, exists_eq_left']

/-- With nothing pending, an option is read by its shape. -/
theorem option_nothing (h : ReadsOptions side Reader Stops) {o : Options} {arg : String}
    {args : List String} {result : α} {shape : Shape} (hshape : shapeOf side arg = shape)
    (hrest : shape ≠ .rest) (hplain : shape ≠ .plain) :
    Reader o .nothing (arg :: args) result ↔
      ∃ next, Reads o shape next ∧ Reader next.1 next.2 args result := by
  subst hshape
  simp only [h.option hrest hplain, option_ok_iff, Options.settle_nothing, Except.ok.injEq,
    exists_eq_left']

/-- The arguments of an option are read by storing it. -/
theorem spelled (h : ReadsOptions side Reader Stops) {item : Item} {piece : List String}
    (hspelled : item.Spelled piece) (hknows : side.Knows item) {o : Options}
    {args : List String} {result : α} :
    Reader o .nothing (piece ++ args) result ↔
      ∃ s, o.store item = .ok s ∧ Reader s .nothing args result := by
  cases hspelled with
  | flag raised =>
    have hshape : shapeOf side raised.spelling = .flag raised false :=
      shapeOf_flag fun hraised => hknows (congrArg Item.flag hraised)
    rw [List.singleton_append, h.option_nothing hshape nofun nofun]
    constructor
    · rintro ⟨next, hreads, hmore⟩
      cases hreads with
      | flag hraise => exact ⟨_, hraise, hmore⟩
    · rintro ⟨s, hraise, hmore⟩
      exact ⟨_, .flag hraise, hmore⟩
  | @joined slot text hvalue =>
    rw [List.singleton_append, h.option_nothing (shapeOf_joined side slot text) nofun nofun]
    constructor
    · rintro ⟨next, hreads, hmore⟩
      cases hreads with
      | joined hfill => exact ⟨_, hfill, hmore⟩
    · rintro ⟨s, hfill, hmore⟩
      exact ⟨_, .joined hfill, hmore⟩
  | @apart slot text hvalue hplain =>
    rw [List.cons_append, List.singleton_append,
      h.option_nothing (shapeOf_apart side slot) nofun nofun]
    constructor
    · rintro ⟨next, hreads, hmore⟩
      cases hreads with
      | apart =>
        obtain ⟨_, _, s, ⟨⟩, -, hfill, hmore⟩ := h.awaited.mp hmore
        exact ⟨s, hfill, hmore⟩
    · rintro ⟨s, hfill, hmore⟩
      exact ⟨_, .apart slot, h.awaited.mpr ⟨text, args, s, rfl, hplain, hfill, hmore⟩⟩

/-- The arguments of one option come first, and the rest is read with it stored. -/
def ReadsItem (side : Side) (Reader : Options → Pending → List String → α → Prop) (o : Options)
    (args : List String) (result : α) : Prop :=
  ∃ item piece rest s, args = piece ++ rest ∧ item.Spelled piece ∧ side.Knows item ∧
    o.store item = .ok s ∧ Reader s .nothing rest result

/-- An argument that is read as an option spells it, with the next one if it takes that. -/
theorem readsItem_of_reads (h : ReadsOptions side Reader Stops) {o : Options} {arg : String}
    {args : List String} {result : α} {shape : Shape} {next : Options × Pending}
    (hlooks : Looks side arg shape) (hreads : Reads o shape next)
    (hmore : Reader next.1 next.2 args result) :
    ReadsItem side Reader o (arg :: args) result := by
  cases hreads with
  | @flag raised s hraise =>
    cases hlooks with
    | flag _ hside =>
      have hknows : side.Knows (.flag raised) := fun hitem => hside (Item.flag.inj hitem)
      exact ⟨.flag raised, [_], args, s, rfl, .flag raised, hknows, hraise, hmore⟩
    | refused hrefused => cases hrefused
  | @joined slot text s hfill =>
    cases hlooks with
    | joined =>
      have hproper : (Item.value slot text).Proper := Options.proper_of_store hfill
      exact ⟨.value slot text, [_], args, s, rfl, .joined hproper, nofun, hfill, hmore⟩
    | refused hrefused => cases hrefused
  | apart slot =>
    cases hlooks with
    | apart =>
      obtain ⟨text, rest, s, rfl, htext, hfill, hmore⟩ := h.awaited.mp hmore
      have hproper : (Item.value slot text).Proper := Options.proper_of_store hfill
      exact ⟨.value slot text, [_, text], rest, s, rfl, .apart hproper htext, nofun, hfill, hmore⟩
    | refused hrefused => cases hrefused

/-- **One turn.**  The options end, or the arguments of one option are read and the option
is stored. -/
theorem turn (h : ReadsOptions side Reader Stops) {o : Options} {args : List String} {result : α} :
    Reader o .nothing args result ↔ Stops o args result ∨ ReadsItem side Reader o args result := by
  constructor
  · intro hread
    rcases halts_or side .nothing args with
      hhalt | ⟨slot', text, rest, ⟨⟩, -, -⟩ | ⟨arg, rest, rfl, hrest, hplain⟩
    · exact Or.inl ((h.halt_nothing hhalt).mp hread)
    · obtain ⟨next, hreads, hmore⟩ := (h.option_nothing rfl hrest hplain).mp hread
      exact Or.inr (h.readsItem_of_reads (looks_shapeOf side arg) hreads hmore)
  · rintro (hstops | ⟨item, piece, rest, s, rfl, hspelled, hknows, hstore, hmore⟩)
    · exact (h.halt_nothing (h.halts hstops)).mpr hstops
    · exact (h.spelled hspelled hknows).mpr ⟨s, hstore, hmore⟩

/-! ## All options -/

/-- **All turns.**  The arguments of some options are read, the options are stored in order,
and the options end. -/
theorem run (h : ReadsOptions side Reader Stops) {o : Options} {args : List String} {result : α} :
    Reader o .nothing args result ↔
      ∃ items body rest s, args = body ++ rest ∧ Spells items body ∧
        (∀ item ∈ items, side.Knows item) ∧ o.storeAll items = .ok s ∧ Stops s rest result := by
  constructor
  · -- each turn reads at least one argument
    induction hlen : args.length using Nat.strongRecOn generalizing o args with
    | ind count ih =>
      intro hread
      rcases h.turn.mp hread with
        hstops | ⟨item, piece, more, s, rfl, hspelled, hknows, hstore, hmore⟩
      · exact ⟨[], [], args, o, rfl, .nil, nofun, rfl, hstops⟩
      · have hshorter : more.length < count := by
          rw [← hlen, List.length_append]
          exact Nat.lt_add_of_pos_left hspelled.length_pos
        obtain ⟨items, body, rest, s', rfl, hspells, hall, hitems, hstops⟩ :=
          ih _ hshorter rfl hmore
        exact ⟨item :: items, piece ++ body, rest, s', (List.append_assoc ..).symm,
          .cons hspelled hspells, List.forall_mem_cons.mpr ⟨hknows, hall⟩,
          Options.storeAll_cons_iff.mpr ⟨s, hstore, hitems⟩, hstops⟩
  · rintro ⟨items, body, rest, s, rfl, hspells, hall, hitems, hstops⟩
    -- along the spelling: the first option is stored, the others from there
    induction hspells generalizing o with
    | nil =>
      obtain rfl : o = s := by simpa [Options.storeAll, pure, Except.pure] using hitems
      exact h.turn.mpr (Or.inl hstops)
    | cons hspelled hspells ih =>
      obtain ⟨hknows, hall⟩ := List.forall_mem_cons.mp hall
      obtain ⟨s', hstore, hitems⟩ := Options.storeAll_cons_iff.mp hitems
      rw [List.append_assoc, h.spelled hspelled hknows]
      exact ⟨s', hstore, ih hall hitems⟩

/-- With nothing stored, the options are those that may stand on the side. -/
theorem run_start (h : ReadsOptions side Reader Stops) {args : List String} {result : α} :
    Reader {} .nothing args result ↔
      ∃ items body rest, args = body ++ rest ∧ Spells items body ∧ side.Admits items ∧
        Stops (optionsOf items) rest result := by
  rw [h.run]
  constructor
  · rintro ⟨items, body, rest, s, hargs, hspells, hall, hitems, hstops⟩
    obtain ⟨hnodup, -, rfl⟩ := Options.storeAll_ok_iff.mp hitems
    exact ⟨items, body, rest, hargs, hspells, ⟨hnodup, fun hmem => hall _ hmem rfl⟩, hstops⟩
  · rintro ⟨items, body, rest, hargs, hspells, hadmits, hstops⟩
    have hall : ∀ item ∈ items, side.Knows item := by
      rintro item hmem rfl
      exact hadmits.keepGoing hmem
    exact ⟨items, body, rest, _, hargs, hspells, hall,
      Options.storeAll_ok_iff.mpr ⟨hadmits.nodup, hspells.proper, rfl⟩, hstops⟩

end ReadsOptions

/-! ## The two readers -/

theorem shapeOf_dashes (side : Side) : shapeOf side "--" = .rest := by
  cases side <;> rfl

theorem ending_cons_iff {arg : String} {args : List String} :
    Request.Ending (arg :: args) ↔ arg = "--" ∧ args = [] := by
  simp [Request.Ending]

theorem halts_of_ending {side : Side} {args : List String} (h : Request.Ending args) :
    Halts side .nothing args := by
  rcases h with rfl | rfl
  · exact .nil _
  · exact .rest (shapeOf_dashes side)

theorem not_ending_of_plain {side : Side} {arg : String} (h : shapeOf side arg = .plain)
    (args : List String) : ¬Request.Ending (arg :: args) := by
  intro hending
  obtain ⟨rfl, -⟩ := ending_cons_iff.mp hending
  rw [shapeOf_dashes] at h
  cases h

/-- Nothing may stand behind two dashes. -/
theorem readRest_ok_iff {side : Side} {o o' : Options} {pending : Pending} {args : List String} :
    readRest side o pending args = .ok o' ↔ args = [] ∧ o.settle pending = .ok o' := by
  cases args with
  | nil => simp [readRest]
  | cons arg args =>
    rw [readRest]
    split <;> exact ⟨nofun, nofun⟩

/-- What is made of the arguments at the end of the options behind a subcommand: there may
be two dashes. -/
def StopsBehind (o : Options) (args : List String) (o' : Options) : Prop :=
  Request.Ending args ∧ o' = o

/-- What is made of the arguments at the end of the options before any subcommand: there
may be two dashes, or a subcommand and its options. -/
def StopsBefore (o : Options) (args : List String)
    (result : Options × Option (Side × Options)) : Prop :=
  (Request.Ending args ∧ result = (o, none)) ∨
    ∃ arg rest side behind, args = arg :: rest ∧ sideOf? arg = some side ∧
      readBehind side {} .nothing rest = .ok behind ∧ result = (o, some (side, behind))

/-- Behind a subcommand a plain argument that nothing awaits is refused. -/
theorem readBehind_plain (o : Options) {side : Side} {pending : Pending} {arg : String}
    (h : shapeOf side arg = .plain) (hpending : ∀ slot, pending ≠ .awaited slot)
    (args : List String) :
    readBehind side o pending (arg :: args) = .error (strayRefusal side) := by
  cases pending with
  | awaited slot => exact absurd rfl (hpending slot)
  | nothing | given slot text =>
    simp only [readBehind, h]
    rfl

theorem readBehind_halt {side : Side} {o o' : Options} {pending : Pending} {args : List String}
    (h : Halts side pending args) :
    readBehind side o pending args = .ok o' ↔
      ∃ s, o.settle pending = .ok s ∧ StopsBehind s args o' := by
  unfold StopsBehind
  cases h with
  | nil => simp [readBehind, Request.Ending, eq_comm]
  | rest h =>
    obtain rfl := eq_of_shapeOf_rest h
    simp only [readBehind, h, readRest_ok_iff, ending_cons_iff, true_and]
    constructor
    · rintro ⟨hargs, hsettle⟩
      exact ⟨o', hsettle, hargs, rfl⟩
    · rintro ⟨s, hsettle, hargs, rfl⟩
      exact ⟨hargs, hsettle⟩
  | plain h hpending => simp [readBehind_plain o h hpending, not_ending_of_plain h]

theorem readsOptions_behind (side : Side) :
    ReadsOptions side (fun o pending args o' => readBehind side o pending args = .ok o')
      StopsBehind where
  halt h := readBehind_halt h
  value {o slot arg args o'} h := by
    simp only [readBehind, h]
  option {o pending arg args o'} hrest hplain := by
    have hread : readBehind side o pending (arg :: args) =
        option o pending (shapeOf side arg) >>= fun next =>
          readBehind side next.1 next.2 args := by
      generalize hshape : shapeOf side arg = shape at hrest hplain
      cases shape with
      | rest => exact absurd rfl hrest
      | plain => exact absurd rfl hplain
      | flag | slot | help | version | unknown => simp only [readBehind, hshape]
    rw [hread, seq_eq_bind, bind_eq_ok_iff]
  halts h := halts_of_ending h.1

theorem shapeOf_of_sideOf? {arg : String} {side : Side} (h : sideOf? arg = some side) :
    shapeOf .before arg = .plain := by
  unfold sideOf? at h
  split at h
  · rfl
  · rfl
  · cases h

/-- The options behind a subcommand are read first, and what is pending before it is stored
last. -/
theorem readBefore_subcommand {o : Options} {pending : Pending} {arg : String} {side : Side}
    (hside : sideOf? arg = some side) (hpending : ∀ slot, pending ≠ .awaited slot)
    (args : List String) :
    readBefore o pending (arg :: args) =
      readBehind side {} .nothing args >>= fun behind =>
        o.settle pending >>= fun s => .ok (s, some (side, behind)) := by
  rw [readBefore_plain o (shapeOf_of_sideOf? hside) hpending, hside]
  show (readBehind side {} .nothing args).bind _ = _
  cases readBehind side {} .nothing args with
  | error refusal => rfl
  | ok behind => cases o.settle pending <;> rfl

theorem readBefore_halt {o : Options} {pending : Pending} {args : List String}
    {result : Options × Option (Side × Options)} (h : Halts .before pending args) :
    readBefore o pending args = .ok result ↔
      ∃ s, o.settle pending = .ok s ∧ StopsBefore s args result := by
  cases h with
  | nil =>
    have hread : readBefore o pending [] = o.settle pending >>= fun s => .ok (s, none) := rfl
    have hstops : ∀ s, StopsBefore s [] result ↔
        (.ok (s, none) : Except Refusal _) = .ok result := by
      intro s
      simp [StopsBefore, Request.Ending, eq_comm]
    simp only [hread, hstops, seq_eq_bind, bind_eq_ok_iff]
  | @rest arg args h =>
    have hread : readBefore o pending (arg :: args) =
        readRest .before o pending args >>= fun s => .ok (s, none) := by
      simp only [readBefore, h]
      rfl
    obtain rfl := eq_of_shapeOf_rest h
    have hstops : ∀ s, StopsBefore s ("--" :: args) result ↔
        args = [] ∧ (.ok (s, none) : Except Refusal _) = .ok result := by
      intro s
      simp [StopsBefore, ending_cons_iff, sideOf?, eq_comm]
    simp only [hread, hstops, seq_eq_bind, bind_eq_ok_iff, readRest_ok_iff, and_assoc, and_left_comm]
  | @plain arg args h hpending =>
    -- nothing but a subcommand may stand here
    have hnot := not_ending_of_plain h args
    cases hside : sideOf? arg with
    | none => simp [readBefore_plain o h hpending, StopsBefore, hnot, hside]
    | some side =>
      simp only [readBefore_subcommand hside hpending, seq_eq_bind, bind_eq_ok_iff]
      constructor
      · rintro ⟨behind, hbehind, s, hsettle, ⟨⟩⟩
        exact ⟨s, hsettle, Or.inr ⟨arg, args, side, behind, rfl, hside, hbehind, rfl⟩⟩
      · rintro ⟨s, hsettle, hending | ⟨_, _, side', behind, ⟨⟩, hside', hbehind, rfl⟩⟩
        · exact absurd hending.1 hnot
        · obtain rfl : side = side' := Option.some.inj (hside.symm.trans hside')
          exact ⟨behind, hbehind, s, hsettle, rfl⟩

theorem readsOptions_before :
    ReadsOptions .before (fun o pending args result => readBefore o pending args = .ok result)
      StopsBefore where
  halt h := readBefore_halt h
  value {o slot arg args o'} h := by
    simp only [readBefore, h]
  option {o pending arg args o'} hrest hplain := by
    have hread : readBefore o pending (arg :: args) =
        option o pending (shapeOf .before arg) >>= fun next => readBefore next.1 next.2 args := by
      generalize hshape : shapeOf .before arg = shape at hrest hplain
      cases shape with
      | rest => exact absurd rfl hrest
      | plain => exact absurd rfl hplain
      | flag | slot | help | version | unknown => simp only [readBefore, hshape]
    rw [hread, seq_eq_bind, bind_eq_ok_iff]
  halts {o args result} h := by
    rcases h with ⟨hending, -⟩ | ⟨arg, rest, side, behind, rfl, hside, -, -⟩
    · exact halts_of_ending hending
    · refine .plain (shapeOf_of_sideOf? hside) ?_
      rintro slot ⟨⟩

end Invocation
end DocCoverage
