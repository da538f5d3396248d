import Classwright.Proofs.Prefixes

/-!
# Reading values

A value is read as what its tokens stand for (`Json.Reader.reads_value`), and any value
can be moved over (`Json.Reader.reads_skip`); what is read as a value or moved over is a
value of the grammar (`Json.Reader.consumes_value`, `Json.Reader.consumes_skip`).

Lists and objects are read with a limit on their depth, and their items with a bound on
the number of steps. The bound is the length of the text, which is enough because every
item has at least one character; this is the invariant of the inductions below.
-/

namespace Classwright.Json

open Raw (itemTokens memberTokens)

/-! ## What values stand for

A value that is written stands for a decoded one if no string in it has a lone
surrogate, no number is too large, and no object is deeper than the limit.
-/

/-- The string of characters that need no escape. -/
def Literal.plain (cs : List Char) (h : cs.all Reader.isPlain) : Literal :=
  ⟨cs ++ ['"'], Reader.isQuoted_append (List.all_eq_true.1 h) .close⟩

/-- A string without escapes is read as it is written. -/
theorem Literal.text?_plain {cs : List Char} (h : cs.all Reader.isPlain) :
    (plain cs h).text? = some (String.ofList cs) := by
  have hparts :
    ∀ n, Reader.Does (· = cs ++ ['"']) (Reader.stringParts (n + 1)) (some cs) (· = []) := fun n =>
    .bind (Reader.does_takeWhile_plain (List.all_eq_true.1 h) (by decide))
      (.peek (.bind .drop (.pure fun _ => id)))
  have hread :
      Reader.Does (· = (plain cs h).chars) Reader.string (some (String.ofList cs)) (· = []) := by
    refine .bind .drop (.remaining fun n =>
      .bind ((hparts n).mono (fun _ hcs => ?_) fun _ => id) (.pure fun _ => id))
    exact hcs.1
  exact hread.toOption_run'

/-- The members of an object, where `read?` gives what a value stands for. -/
def Raw.members? {α : Type} (read? : Raw → Option α) (members : List (Literal × Raw)) :
    Option (List (String × α)) :=
  members.mapM fun m => do return (← m.1.text?, ← read? m.2)

/-- The value that tokens stand for, if at most `levels` lists and objects are open at a
time. -/
def Raw.json? : Nat → Raw → Option Json
  | _, .scalar s => s.value?
  | 0, .list _ => none
  | 0, .object _ => none
  | levels + 1, .list items => (items.mapM (json? levels)).map .list
  | levels + 1, .object members => (members? (json? levels) members).map .object

theorem Raw.tokens_list (items : List Raw) (ts : List (List Char)) :
    (Raw.list items).tokens ++ ts = ['['] :: (itemTokens true items ++ [']'] :: ts) := by
  simp [tokens]

theorem Raw.tokens_object (members : List (Literal × Raw)) (ts : List (List Char)) :
    (Raw.object members).tokens ++ ts =
    ['\x7b'] :: (memberTokens true members ++ ['\x7d'] :: ts) := by
  simp [tokens]

/-- A mark that can follow a value follows it. -/
theorem closed_cons {c : Char} {ts : List (List Char)} (hc : c ∈ [',', ']', '\x7d', ':']) :
    Closed ([c] :: ts) := by
  rintro t ⟨⟩
  simpa using hc

/-- What follows an element closes it: a comma or the bracket. -/
theorem closed_itemTokens {items : List Raw} {ts : List (List Char)} :
    Closed (itemTokens false items ++ [']'] :: ts) := by
  cases items with
  | nil => exact closed_cons (by decide)
  | cons v items => exact closed_cons (c := ',') (by decide)

/-- What follows a member closes it: a comma or the brace. -/
theorem closed_memberTokens {members : List (Literal × Raw)} {ts : List (List Char)} :
    Closed (memberTokens false members ++ ['\x7d'] :: ts) := by
  cases members with
  | nil => exact closed_cons (by decide)
  | cons m members => exact closed_cons (c := ',') (by decide)

/-- A list has at least one token for each element, so its length is enough fuel. -/
theorem Raw.length_items_le :
    ∀ (first : Bool) (items : List Raw), items.length ≤ (itemTokens first items).length
  | _, [] => Nat.zero_le _
  | first, v :: items => by
    have hrest := length_items_le false items
    obtain ⟨token, vs, hv, -⟩ := v.tokens_eq
    simp only [itemTokens, hv, List.length_append, List.length_cons]
    omega

/-- An object has at least one token for each member. -/
theorem Raw.length_members_le : ∀ (first : Bool) (members : List (Literal × Raw)),
    members.length ≤ (memberTokens first members).length
  | _, [] => Nat.zero_le _
  | first, (k, v) :: members => by
    have hrest := length_members_le false members
    simp only [memberTokens, List.length_append, List.length_cons]
    omega

namespace Reader

variable {α : Type}

/-! ## Tokens

The readers of strings, numbers and words, with the gaps in front of them.
-/

section tokens

variable {ts : List (List Char)} {P : List Char → Prop}

theorem does_stringToken (l : Literal) :
    Does (Standing (l.chars :: ts)) string l.text? (Spaced ts) :=
  .token fun _ => does_string l

theorem does_skipStringToken (l : Literal) :
    Does (Standing (l.chars :: ts)) skipString (some ()) (Spaced ts) :=
  .token fun _ => does_skipString l

theorem does_scalarToken (s : Scalar) (hts : Closed ts) :
    Does (Standing (s.chars :: ts)) (scalar s.first) s.value? (Spaced ts) :=
  .token fun h => does_scalar s (hts.delimited h)

theorem does_skipScalarToken (s : Scalar) (hts : Closed ts) :
    Does (Standing (s.chars :: ts)) (skipScalar s.first) (some ()) (Spaced ts) :=
  .token fun h => does_skipScalar s (hts.delimited h)

/-- What takes the characters of tokens passes over the tokens. -/
theorem Takes.consumes {r : Reader α} {S : List Char → Prop} (h : Takes P r fun front _ => S front)
    (hs : ∀ front, S front → ∃ x token, front = x :: token ∧ Cursor.isGap x = false) :
    Consumes P r fun ts _ _ => ∃ front, ts = [front] ∧ S front := by
  intro c x c' hc hx
  obtain ⟨front, hfront, hrest⟩ := h hc hx
  obtain ⟨y, token, rfl, hy⟩ := hs front hfront
  rw [hrest]
  exact ⟨_, ⟨_, rfl, hfront⟩, .token hy⟩

/-- A reader that takes the characters of a string consumes it as a token. -/
theorem Takes.consumes_literal {r : Reader α}
    (h : Takes P r fun front _ => ∃ l : Literal, front = l.chars) :
    Consumes P r fun ts _ _ => ∃ l : Literal, ts = [l.chars] := by
  refine (h.consumes fun _ ⟨l, h⟩ => l.exists_chars h).mono (fun _ => id) ?_
  rintro _ _ _ ⟨_, rfl, l, rfl⟩
  exact ⟨l, rfl⟩

/-- A scalar is a value. -/
theorem Takes.consumes_scalar {r : Reader α}
    (h : Takes P r fun front _ => ∃ s : Scalar, front = s.chars) :
    Consumes P r fun ts _ _ => ∃ v : Raw, ts = v.tokens := by
  refine (h.consumes fun _ ⟨s, h⟩ => s.exists_chars h).mono (fun _ => id) ?_
  rintro _ _ _ ⟨_, rfl, s, rfl⟩
  exact ⟨.scalar s, rfl⟩

end tokens

/-- Whether a reader reads any value as what it stands for, if it stands for anything,
and leaves what follows it. -/
def Reads (r : Reader α) (read? : Raw → Option α) : Prop :=
  ∀ ⦃v ts⦄, Closed ts → Does (Spaced (v.tokens ++ ts)) r (read? v) (Spaced ts)

/-! ## Items and members

Items are read one by one: the induction is on the items, for any bound that exceeds
their number.
-/

section containers

variable {item : Reader α} {read? : Raw → Option α} {ts : List (List Char)} {P : List Char → Prop}

/-- Reads a member of an object, whose value `item` reads. -/
def keyed (item : Reader α) : Reader (String × α) := do
  let key ← string
  colon
  return (key, ← item)

/-- The items of a list are read one by one. -/
theorem does_items (h : Reads item read?) : ∀ {items : List Raw} {fuel : Nat}
    {first : Bool}, items.length < fuel → Does (Spaced (itemTokens first items ++ [']'] :: ts))
    (Reader.items item fuel first) (items.mapM read?) (Spaced ([']'] :: ts))
  | [], fuel + 1, first, _ => .bind does_hasItem_nil (.pure fun _ => id)
  | v :: items, fuel + 1, first, hfuel => by
    rw [List.mapM_cons]
    refine .bind does_hasItem_cons (.bind_bind (h closed_itemTokens) fun x _ => ?_)
    exact .bind_bind (does_items h (Nat.lt_of_succ_lt_succ hfuel)) fun xs _ => .pure fun _ => id

/-- The members of an object are read one by one. -/
theorem does_members (h : Reads item read?) :
    ∀ {members : List (Literal × Raw)} {fuel : Nat} {first : Bool}, members.length < fuel →
      Does (Spaced (memberTokens first members ++ ['\x7d'] :: ts))
        (Reader.members (keyed item) fuel first) (Raw.members? read? members)
        (Spaced (['\x7d'] :: ts))
  | [], fuel + 1, first, _ => .bind does_hasMember_nil (.pure fun _ => id)
  | (k, v) :: members, fuel + 1, first, hfuel => by
    have hmember : Does (Standing (k.chars :: [':'] :: (v.tokens ++
        (memberTokens false members ++ ['\x7d'] :: ts)))) (keyed item) (do return (← k.text?,
        ← read? v)) (Spaced (memberTokens false members ++ ['\x7d'] :: ts)) :=
      .bind_bind (does_stringToken k) fun key _ => .bind does_colon
        (.bind_bind (h closed_memberTokens) fun x _ => .pure fun _ => id)
    rw [Raw.members?, List.mapM_cons]
    refine .bind does_hasMember_cons (.bind_bind hmember fun m _ => ?_)
    exact .bind_bind (does_members h (Nat.lt_of_succ_lt_succ hfuel)) fun ms _ => .pure fun _ => id

/-- What has been read as elements are the tokens of written values, with their commas. -/
theorem consumes_items (h : Consumes (fun _ => True) item fun ts _ _ => ∃ v : Raw, ts = v.tokens) :
    ∀ {fuel : Nat} {first : Bool} {P : List Char → Prop},
    Consumes P (items item fuel first) fun ts _ _ =>
      ∃ vs : List Raw, ts = itemTokens first vs
  | 0, _, _ => .pure fun _ _ => ⟨[], rfl⟩
  | fuel + 1, first, P => by
    -- Whether there is a further element is told by the comma or the bracket.
    refine .bind consumes_hasItem fun ts more _ hts => ?_
    cases more with
    | false =>
      subst hts
      exact .pure fun _ _ => ⟨[], rfl⟩
    | true =>
      subst hts
      refine .bind h.anywhere ?_
      rintro _ x _ ⟨v, rfl⟩
      refine .bind (consumes_items h) ?_
      rintro _ xs _ ⟨vs, rfl⟩
      exact .pure fun _ _ => ⟨v :: vs, by simp [itemTokens]⟩

/-- What has been read as members are the tokens of written strings and values. -/
theorem consumes_members
    (h : Consumes (fun _ => True) item fun ts _ _ => ∃ v : Raw, ts = v.tokens) :
    ∀ {fuel : Nat} {first : Bool} {P : List Char → Prop},
    Consumes P (members (keyed item) fuel first) fun ts _ _ =>
      ∃ ms : List (Literal × Raw), ts = memberTokens first ms
  | 0, _, _ => .pure fun _ _ => ⟨[], rfl⟩
  | fuel + 1, first, P => by
    -- Whether there is a further member is told by the comma or the brace.
    refine .bind consumes_hasMember ?_
    rintro _ more y? ⟨rfl, hkey⟩
    cases more with
    | false => exact .pure fun _ _ => ⟨[], rfl⟩
    | true =>
      obtain rfl := hkey rfl
      -- A member is a string, a colon and a value.
      have hmember : ∀ {P : List Char → Prop}, (∀ cs, P cs → cs.head? = some '"') →
          Consumes P (keyed item)
            fun ts _ _ => ∃ (k : Literal) (v : Raw), ts = k.chars :: [':'] :: v.tokens := by
        intro P hp
        refine .bind (takes_string hp).consumes_literal ?_
        rintro _ key _ ⟨k, rfl⟩
        refine .bind consumes_colon ?_
        rintro _ _ _ rfl
        refine .bind h.anywhere ?_
        rintro _ x _ ⟨v, rfl⟩
        exact .pure fun _ _ => ⟨k, v, by simp⟩
      refine .bind (hmember fun _ h => h.1) ?_
      rintro _ m _ ⟨k, v, rfl⟩
      refine .bind (consumes_members h) ?_
      rintro _ ms _ ⟨vs, rfl⟩
      exact .pure fun _ _ => ⟨(k, v) :: vs, by simp [memberTokens]⟩

end containers

/-! ## Values

The readers of values and those of items call one another, and the limit on the depth
goes down with each list and each object.
-/

section values

variable {ts : List (List Char)} {P : List Char → Prop}

/-- The fuel for the items of a list is enough. -/
theorem lt_of_spaced_items {items : List Raw} {cs : List Char}
    (h : Spaced (itemTokens true items ++ ts) cs) : items.length < cs.length + 1 := by
  have hle := h.length_le
  have hitems := Raw.length_items_le true items
  rw [List.length_append] at hle
  omega

/-- The fuel for the members of an object is enough. -/
theorem lt_of_spaced_members {members : List (Literal × Raw)} {cs : List Char}
    (h : Spaced (memberTokens true members ++ ts) cs) : members.length < cs.length + 1 := by
  have hle := h.length_le
  have hmembers := Raw.length_members_le true members
  rw [List.length_append] at hle
  omega

/-- All items of a list are read, as there are no more of them than characters. -/
theorem does_allItems {item : Reader α} {read? : Raw → Option α} (h : Reads item read?)
    {items : List Raw} {n : Nat} :
    Does (fun cs => Spaced (itemTokens true items ++ [']'] :: ts) cs ∧
    cs.length = n) (Reader.items item (n + 1) true) (items.mapM read?) (Spaced ([']'] :: ts)) := by
  rintro c ⟨hc, rfl⟩
  exact does_items h (lt_of_spaced_items hc) c hc

/-- All members of an object are read. -/
theorem does_allMembers {item : Reader α} {read? : Raw → Option α} (h : Reads item read?)
    {members : List (Literal × Raw)} {n : Nat} :
    Does (fun cs => Spaced (memberTokens true members ++ ['\x7d'] :: ts) cs ∧ cs.length = n)
      (Reader.members (keyed item) (n + 1) true) (Raw.members? read? members)
      (Spaced (['\x7d'] :: ts)) := by
  rintro c ⟨hc, rfl⟩
  exact does_members h (lt_of_spaced_members hc) c hc

/-- The first character of a scalar tells it from a list and an object. -/
theorem does_valueWith_scalar {s : Scalar} {inner? : Option (Reader Json)} (hts : Closed ts) :
    Does (Spaced ((Raw.scalar s).tokens ++ ts)) (valueWith inner?) s.value? (Spaced ts) := by
  refine .peekToken ?_
  rw [Raw.head?_tokens]
  split
  · contradiction
  · next heq => exact absurd (Option.some.inj heq) (s.first_ne (by decide))
  · next heq => exact absurd (Option.some.inj heq) (s.first_ne (by decide))
  · next heq =>
    obtain rfl := Option.some.inj heq
    exact does_scalarToken s hts

/-- A value is read as what its tokens stand for. -/
theorem reads_value : ∀ levels : Nat, Reads (value levels) (Raw.json? levels)
  | 0, .scalar _, _, hts => does_valueWith_scalar hts
  | 0, .list _, _, _ => .peekToken .failPeek
  | 0, .object _, _, _ => .peekToken .failPeek
  | _ + 1, .scalar _, _, hts => does_valueWith_scalar hts
  | levels + 1, .list items, ts, _ => by
    rw [Raw.tokens_list]
    exact .peekToken (does_inList (.remaining fun n => does_allItems (reads_value levels))).map
  | levels + 1, .object members, ts, _ => by
    rw [Raw.tokens_object]
    exact .peekToken (does_inObject (.remaining fun n => does_allMembers (reads_value levels))).map

/-- What is read as a value is one of the grammar. -/
theorem consumes_valueWith {inner? : Option (Reader Json)}
    (h : ∀ inner ∈ inner?,
      Consumes (fun _ => True) inner fun ts _ _ => ∃ v : Raw, ts = v.tokens) :
    Consumes P (valueWith inner?) fun ts _ _ => ∃ v : Raw, ts = v.tokens := by
  refine .peekToken fun x? => ?_
  split
  · exact .failPeek
  · split
    · exact .failPeek
    -- A list: its inside is consumed as elements.
    · next inner =>
      refine .map ((consumes_inList (fun _ h => h.1) (.remaining fun n =>
        consumes_items (h inner rfl))).mono (fun _ => id) ?_)
      rintro _ xs _ ⟨_, y?, rfl, vs, rfl⟩
      exact ⟨.list vs, rfl⟩
  · split
    · exact .failPeek
    -- An object: its inside is consumed as members.
    · next inner =>
      refine .map ((consumes_inObject (fun _ h => h.1) (.remaining fun n =>
        consumes_members (h inner rfl))).mono (fun _ => id) ?_)
      rintro _ xs _ ⟨_, y?, rfl, ms, rfl⟩
      exact ⟨.object ms, rfl⟩
  · exact (takes_scalar fun _ h => h.1).consumes_scalar

/-- What has been read as a value are the tokens of a written value: the induction is on
the levels that may still be opened. -/
theorem consumes_value :
    ∀ {levels : Nat} {P : List Char → Prop}, Consumes P (value levels) fun ts _ _ =>
    ∃ v : Raw, ts = v.tokens
  | 0, _ => consumes_valueWith nofun
  | levels + 1, _ => consumes_valueWith (by
    rintro _ ⟨⟩
    exact consumes_value)

end values

/-! ## Moving over values

The reader that skips a value keeps nothing of it, but stops at the same faults of the
grammar.
-/

section skipping

variable {item : Reader Unit} {ts : List (List Char)} {P : List Char → Prop}

/-- Elements that can be skipped one by one are skipped up to the bracket. -/
theorem does_skipItems : ∀ {items : List Raw} {fuel : Nat} {first : Bool}, items.length < fuel →
    (∀ v ∈ items, ∀ {ts}, Closed ts → Does (Spaced (v.tokens ++ ts)) item (some ()) (Spaced ts)) →
      Does (Spaced (itemTokens first items ++ [']'] :: ts)) (skipItems item fuel first)
      (some ()) (Spaced ts)
  | [], fuel + 1, first, _, _ => .peekToken .dropMark
  | v :: items, fuel + 1, first, hfuel, h => by
    obtain ⟨hv, hrest⟩ := List.forall_mem_cons.1 h
    -- The element itself, and by induction those behind it.
    have hitem : Does (Spaced (v.tokens ++ (itemTokens false items ++ [']'] :: ts))) (do
        item
        skipItems item fuel false) (some ()) (Spaced ts) :=
      .bind (hv closed_itemTokens) (does_skipItems (Nat.lt_of_succ_lt_succ hfuel) hrest)
    -- The first element has no comma before it, and no value starts like the end of the
    -- list.
    cases first with
    | true =>
      obtain ⟨-, -, -, hmark⟩ := v.tokens_eq
      have hts : itemTokens true (v :: items) ++ [']'] :: ts =
          v.tokens ++ (itemTokens false items ++ [']'] :: ts) := by
        simp [itemTokens, comma]
      rw [hts]
      refine .peekToken ?_
      rw [Raw.head?_tokens]
      split
      · contradiction
      · next heq => simp [Option.some.inj heq] at hmark
      · exact hitem.mono (fun _ => Standing.spaced) fun _ => id
    | false =>
      have hts : itemTokens false (v :: items) ++ [']'] :: ts =
          [','] :: (v.tokens ++ (itemTokens false items ++ [']'] :: ts)) := by
        simp [itemTokens, comma]
      rw [hts]
      exact .peekToken (.bind .dropMark hitem)

/-- Members whose values can be skipped are skipped up to the brace. -/
theorem does_skipMembers :
    ∀ {members : List (Literal × Raw)} {fuel : Nat} {first : Bool}, members.length < fuel →
    (∀ m ∈ members, ∀ {ts}, Closed ts →
      Does (Spaced (m.2.tokens ++ ts)) item (some ()) (Spaced ts)) →
      Does (Spaced (memberTokens first members ++ ['\x7d'] :: ts)) (skipMembers item fuel first)
      (some ()) (Spaced ts)
  | [], fuel + 1, first, _, _ => .peekToken .dropMark
  | (k, v) :: members, fuel + 1, first, hfuel, h => by
    obtain ⟨hv, hrest⟩ := List.forall_mem_cons.1 h
    -- The member itself, and by induction those behind it.
    have hmember : Does (Spaced
        (k.chars :: [':'] :: (v.tokens ++ (memberTokens false members ++ ['\x7d'] :: ts)))) (do
          skipMember item
          skipMembers item fuel false) (some ()) (Spaced ts) :=
      .bind
        (.peekToken (.bind (does_skipStringToken k) (.bind does_colon (hv closed_memberTokens))))
        (does_skipMembers (Nat.lt_of_succ_lt_succ hfuel) hrest)
    -- The first member has no comma before it.
    cases first with
    | true =>
      have hts : memberTokens true ((k, v) :: members) ++ ['\x7d'] :: ts =
          k.chars :: [':'] :: (v.tokens ++ (memberTokens false members ++ ['\x7d'] :: ts)) := by
        simp [memberTokens, comma]
      rw [hts]
      exact .peekToken (hmember.mono (fun _ => Standing.spaced) fun _ => id)
    | false =>
      have hts : memberTokens false ((k, v) :: members) ++ ['\x7d'] :: ts =
          [','] :: k.chars :: [':'] ::
          (v.tokens ++ (memberTokens false members ++ ['\x7d'] :: ts)) := by
        simp [memberTokens, comma]
      rw [hts]
      exact .peekToken (.bind .dropMark hmember)

/-- An element has no more tokens than its list. -/
theorem length_item_le {v : Raw} : ∀ (first : Bool) {items : List Raw}, v ∈ items →
    v.tokens.length ≤ (itemTokens first items).length
  | first, w :: items, hv => by
    simp only [itemTokens, List.length_append]
    rcases List.mem_cons.1 hv with rfl | hv
    · omega
    · have hle := length_item_le false hv
      omega

/-- A value has no more tokens than its object. -/
theorem length_member_le {m : Literal × Raw} : ∀ (first : Bool) {members : List (Literal × Raw)},
    m ∈ members → m.2.tokens.length ≤ (memberTokens first members).length
  | first, (k, v) :: members, hm => by
    simp only [memberTokens, List.length_append]
    rcases List.mem_cons.1 hm with rfl | hm
    · dsimp only
      omega
    · have hle := length_member_le false hm
      omega

/-- Values with fewer tokens than the fuel can be moved over. -/
theorem does_skipWithin :
    ∀ {fuel : Nat} {v : Raw} {ts : List (List Char)}, v.tokens.length ≤ fuel → Closed ts →
    Does (Spaced (v.tokens ++ ts)) (skipWithin fuel) (some ()) (Spaced ts)
  | 0, v, _, hfuel, _ => by
    -- A value has at least one token, so the fuel is not used up.
    obtain ⟨token, vs, htokens, -⟩ := v.tokens_eq
    simp [htokens] at hfuel
  | fuel + 1, .scalar s, ts, _, hts => by
    refine .peekToken ?_
    rw [Raw.head?_tokens]
    split
    · contradiction
    · next heq => exact absurd (Option.some.inj heq) (s.first_ne (by decide))
    · next heq => exact absurd (Option.some.inj heq) (s.first_ne (by decide))
    · next heq =>
      obtain rfl := Option.some.inj heq
      exact does_skipScalarToken s hts
  | fuel + 1, .list items, ts, hfuel, hts => by
    -- The fuel is more than the tokens of the list, hence of each of its elements.
    rw [Raw.tokens, List.length_cons, List.length_append] at hfuel
    rw [Raw.tokens_list]
    refine .peekToken (.bind .dropMark (.remaining fun n => ?_))
    rintro c ⟨hc, rfl⟩
    refine does_skipItems (lt_of_spaced_items hc) (fun v hv _ hts => does_skipWithin ?_ hts) c hc
    have hle := length_item_le true hv
    omega
  | fuel + 1, .object members, ts, hfuel, hts => by
    -- The fuel is more than the tokens of the object, hence of each of its values.
    rw [Raw.tokens, List.length_cons, List.length_append] at hfuel
    rw [Raw.tokens_object]
    refine .peekToken (.bind .dropMark (.remaining fun n => ?_))
    rintro c ⟨hc, rfl⟩
    refine does_skipMembers (lt_of_spaced_members hc)
      (fun m hm _ hts => does_skipWithin ?_ hts) c hc
    have hle := length_member_le true hm
    omega

/-- Any value can be moved over. -/
theorem reads_skip : Reads skip fun _ => some () := by
  intro v ts hts
  refine .remaining fun n => ?_
  rintro c ⟨hc, rfl⟩
  have hle := hc.length_le
  rw [List.length_append] at hle
  exact does_skipWithin (by omega) hts c hc

/-- What comes next in a sequence is passed over, together with the comma in front of it
unless it is the first. -/
theorem consumes_separated {next : Reader Unit} {cause : Cause} {x : Char} {first : Bool}
    {bound : Nat} {S : List (List Char) → Prop}
    (hp : ∀ cs, P cs → cs.head? = some x ∧ cs.length < bound)
    (hnext : ∀ {P : List Char → Prop}, (∀ cs, P cs → cs.length < bound) →
      Consumes P next fun ts _ _ => S (comma first ++ ts)) :
    Consumes P (if first then next else if x == ',' then (do
      drop
      next) else failPeek cause) fun ts _ _ => S ts := by
  cases first with
  | true => exact hnext fun cs hcs => (hp cs hcs).2
  | false =>
    rw [if_neg Bool.false_ne_true]
    split
    · next hx =>
      obtain rfl := eq_of_beq hx
      refine .bind (.drop (by decide) fun cs hcs => (hp cs hcs).1) ?_
      rintro _ _ _ rfl
      -- A comma was consumed, so the text is shorter than before.
      refine hnext ?_
      rintro rest ⟨-, cs, hcs, hpasses⟩
      have hlength := (hp cs hcs).2
      have hshorter := hpasses.shorter
      omega
    · exact .failPeek

/-- What has been skipped as elements are written values and the bracket. -/
theorem consumes_skipItems {bound : Nat}
    (h : Consumes (fun cs => cs.length < bound) item fun ts _ _ => ∃ v : Raw, ts = v.tokens) :
    ∀ {fuel : Nat} {first : Bool},
    Consumes (fun cs => cs.length < fuel ∧ cs.length < bound) (skipItems item fuel first)
      fun ts _ _ => ∃ vs : List Raw, ts = itemTokens first vs ++ [[']']]
  | 0, _ => fun _ _ _ hc _ => absurd hc.1 (Nat.not_lt_zero _)
  | fuel + 1, first => by
    -- An element is consumed and then, by induction on the fuel, those behind it.
    have hitem : ∀ {P : List Char → Prop}, (∀ cs, P cs → cs.length < min (fuel + 1) bound) →
        Consumes P (do
          item
          skipItems item fuel false) fun ts _ _ => ∃ vs : List Raw, comma first ++ ts =
            itemTokens first vs ++ [[']']] := by
      intro P hp
      refine .bind (h.mono (fun cs hcs => (Nat.lt_min.1 (hp cs hcs)).2) fun _ _ _ => id) ?_
      rintro _ _ _ ⟨v, rfl⟩
      refine .mono (consumes_skipItems h) ?_ ?_
      -- The element had at least one token, so the rest fits the smaller fuel.
      · rintro rest ⟨-, cs, hcs, hpasses⟩
        have hlength := hp cs hcs
        have hshorter := hpasses.shorter
        obtain ⟨token, vs, htokens, -⟩ := v.tokens_eq
        rw [htokens, List.length_cons] at hshorter
        omega
      · rintro _ _ _ ⟨vs, rfl⟩
        exact ⟨v :: vs, by simp [itemTokens]⟩
    refine .peekToken fun x? => ?_
    split
    · exact .failPeek
    · refine .mono (.drop (by decide) fun _ h => h.1) (fun _ => id) ?_
      rintro _ _ _ rfl
      exact ⟨[], rfl⟩
    · refine consumes_separated ?_ hitem
      rintro rest ⟨hhead, cs, hcs, hpasses⟩
      have hshorter := hpasses.shorter
      exact ⟨hhead, by omega⟩

/-- What has been skipped as a member is a string, a colon and a written value. -/
theorem consumes_skipMember {P : List Char → Prop} {bound : Nat}
    (h : Consumes (fun cs => cs.length < bound) item fun ts _ _ => ∃ v : Raw, ts = v.tokens)
    (hp : ∀ cs, P cs → cs.length < bound) : Consumes P (skipMember item)
      fun ts _ _ => ∃ (k : Literal) (v : Raw), ts = k.chars :: [':'] :: v.tokens := by
  refine .peekToken fun x? => ?_
  split
  · exact .failPeek
  · refine .bind (takes_skipString fun _ h => h.1).consumes_literal ?_
    rintro _ _ _ ⟨k, rfl⟩
    refine .bind consumes_colon ?_
    rintro _ _ _ rfl
    refine h.mono ?_ ?_
    -- The string and the colon were consumed, so the rest is within the bound.
    · rintro rest ⟨-, cs₂, ⟨-, cs₁, ⟨-, cs, hcs, hpasses⟩, hpasses₁⟩, hpasses₂⟩
      have hlength := hp cs hcs
      have hshorter := hpasses.shorter
      have hshorter₁ := hpasses₁.shorter
      have hshorter₂ := hpasses₂.shorter
      omega
    · rintro _ _ _ ⟨v, rfl⟩
      exact ⟨k, v, by simp⟩
  · exact .failPeek

/-- What has been skipped as members are written members and the brace. -/
theorem consumes_skipMembers {bound : Nat}
    (h : Consumes (fun cs => cs.length < bound) item fun ts _ _ => ∃ v : Raw, ts = v.tokens) :
    ∀ {fuel : Nat} {first : Bool},
    Consumes (fun cs => cs.length < fuel ∧ cs.length < bound) (skipMembers item fuel first)
      fun ts _ _ => ∃ ms : List (Literal × Raw), ts = memberTokens first ms ++ [['\x7d']]
  | 0, _ => fun _ _ _ hc _ => absurd hc.1 (Nat.not_lt_zero _)
  | fuel + 1, first => by
    -- A member is consumed and then, by induction on the fuel, those behind it.
    have hmember : ∀ {P : List Char → Prop}, (∀ cs, P cs → cs.length < min (fuel + 1) bound) →
        Consumes P (do
          skipMember item
          skipMembers item fuel false) fun ts _ _ =>
            ∃ ms : List (Literal × Raw),
              comma first ++ ts = memberTokens first ms ++ [['\x7d']] := by
      intro P hp
      refine .bind (consumes_skipMember h fun cs hcs => (Nat.lt_min.1 (hp cs hcs)).2) ?_
      rintro _ _ _ ⟨k, v, rfl⟩
      refine .mono (consumes_skipMembers h) ?_ ?_
      -- The member had at least one token, so the rest fits the smaller fuel.
      · rintro rest ⟨-, cs, hcs, hpasses⟩
        have hlength := hp cs hcs
        have hshorter := hpasses.shorter
        rw [List.length_cons] at hshorter
        omega
      · rintro _ _ _ ⟨ms, rfl⟩
        exact ⟨(k, v) :: ms, by simp [memberTokens]⟩
    refine .peekToken fun x? => ?_
    split
    · exact .failPeek
    · refine .mono (.drop (by decide) fun _ h => h.1) (fun _ => id) ?_
      rintro _ _ _ rfl
      exact ⟨[], rfl⟩
    · refine consumes_separated ?_ hmember
      rintro rest ⟨hhead, cs, hcs, hpasses⟩
      have hshorter := hpasses.shorter
      exact ⟨hhead, by omega⟩

/-- What has been skipped as a value is a written value; the fuel bounds the length of
the text. -/
theorem consumes_skipWithin :
    ∀ {fuel : Nat}, Consumes (fun cs => cs.length < fuel) (skipWithin fuel) fun ts _ _ =>
    ∃ v : Raw, ts = v.tokens
  | 0 => fun _ _ _ hc _ => absurd hc (Nat.not_lt_zero _)
  | fuel + 1 => by
    refine .peekToken fun x? => ?_
    split
    · exact .failPeek
    · refine .bind (.drop (by decide) fun _ h => h.1) ?_
      rintro _ _ _ rfl
      refine .remaining fun n => (consumes_skipItems consumes_skipWithin).mono ?_ ?_
      -- The bracket was consumed, so the inside is shorter than the fuel.
      · rintro rest ⟨⟨-, mid, ⟨-, cs, hcs, hpasses⟩, hpasses'⟩, rfl⟩
        have hshorter := hpasses.shorter
        have hshorter' := hpasses'.shorter
        rw [List.length_singleton] at hshorter'
        omega
      · rintro _ _ _ ⟨vs, rfl⟩
        exact ⟨.list vs, rfl⟩
    · refine .bind (.drop (by decide) fun _ h => h.1) ?_
      rintro _ _ _ rfl
      refine .remaining fun n => (consumes_skipMembers consumes_skipWithin).mono ?_ ?_
      -- The brace was consumed, so the inside is shorter than the fuel.
      · rintro rest ⟨⟨-, mid, ⟨-, cs, hcs, hpasses⟩, hpasses'⟩, rfl⟩
        have hshorter := hpasses.shorter
        have hshorter' := hpasses'.shorter
        rw [List.length_singleton] at hshorter'
        omega
      · rintro _ _ _ ⟨ms, rfl⟩
        exact ⟨.object ms, rfl⟩
    · exact (takes_skipScalar fun _ h => h.1).consumes_scalar

/-- What is moved over is a value of the grammar. -/
theorem consumes_skip : Consumes P skip fun ts _ _ => ∃ v : Raw, ts = v.tokens := by
  refine .remaining fun n => consumes_skipWithin.mono ?_ fun _ _ _ => id
  rintro cs ⟨-, rfl⟩
  exact Nat.lt_succ_self _

end skipping

end Reader

end Classwright.Json
