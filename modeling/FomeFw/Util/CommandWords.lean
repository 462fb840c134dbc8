import FomeFw.Util.CliRegistry

/-! The words of a command line, and that `setargs` finds them. -/
namespace FomeFw.Util

/-- Text without space outside of quotes. -/
inductive Word : List Char → Prop
  | nil : Word []
  | plain {c : Char} {word : List Char} (visible : isspace c = false) (other : c ≠ '"')
      (rest : Word word) : Word (c :: word)
  | quoted {text word : List Char} (closed : '"' ∉ text) (rest : Word word) :
      Word ('"' :: text ++ '"' :: word)

/-- The words of a line, with space before, between and behind them. -/
inductive Tokens : List Char → List (List Char) → Prop
  | nil {space : List Char} (blank : ∀ c ∈ space, isspace c = true) : Tokens space []
  | cons {space word rest : List Char} {tokens : List (List Char)}
      (blank : ∀ c ∈ space, isspace c = true) (whole : Word word) (present : word ≠ [])
      (ends : ∀ c ∈ rest.head?, isspace c = true) (more : Tokens rest tokens) :
      Tokens (space ++ (word ++ rest)) (word :: tokens)

section Scanning

variable {word text rest space done : List Char} {tokens : List (List Char)}

theorem scanToken_quoted (closed : '"' ∉ text) :
    scanToken true done (text ++ '"' :: rest) = scanToken false (done ++ (text ++ ['"'])) rest := by
  induction text generalizing done with
  | nil => rfl
  | cons c text ih =>
    simp only [List.mem_cons, not_or] at closed
    have other : (c != '"') = true := by simpa using Ne.symm closed.1
    rw [List.cons_append, scanToken, if_pos rfl, other, ih closed.2]
    simp

/-- A token ends where its word does. -/
theorem scanToken_word (whole : Word word) (ends : ∀ c ∈ rest.head?, isspace c = true) :
    scanToken false done (word ++ rest) = some (done ++ word, rest) := by
  induction whole generalizing done with
  | nil =>
    cases rest with
    | nil => simp [scanToken]
    | cons c rest =>
      have blank := ends c rfl
      simp [scanToken, blank]
  | @plain c word visible other _ ih =>
    have open' : (c == '"') = false := by simpa using other
    rw [List.cons_append, scanToken, if_neg (by simp), if_neg (by simp [visible]), open', ih]
    simp
  | @quoted text word closed _ ih =>
    rw [List.cons_append, List.cons_append, scanToken, if_neg (by simp), if_neg (by decide),
      beq_self_eq_true, List.append_assoc, List.cons_append, scanToken_quoted closed, ih]
    simp

theorem skipSpace_blank (blank : ∀ c ∈ space, isspace c = true)
    (visible : ∀ c ∈ rest.head?, isspace c = false) :
    skipSpace done (space ++ rest) = (done ++ List.replicate space.length '\x00', rest) := by
  induction space generalizing done with
  | nil =>
    cases rest with
    | nil => simp [skipSpace]
    | cons c rest => simp [skipSpace, visible c rfl]
  | cons c space ih =>
    rw [List.cons_append, skipSpace, if_pos (blank c (List.mem_cons_self ..)),
      ih fun c member => blank c (List.mem_cons_of_mem _ member)]
    simp [List.replicate_succ]

theorem Word.visible (whole : Word word) (present : word ≠ []) :
    ∀ c ∈ (word ++ rest).head?, isspace c = false := by
  intro c first
  cases whole with
  | nil => contradiction
  | @plain head _ visible _ _ =>
    obtain rfl : head = c := by simpa using first
    exact visible
  | quoted =>
    obtain rfl : '"' = c := by simpa using first
    rfl

/-- The tokens of the rest of a line, which begins with one or is at the end. -/
inductive Begun : List Char → List (List Char) → Prop
  | nil : Begun [] []
  | cons {word rest : List Char} {tokens : List (List Char)} (whole : Word word) (present : word ≠ [])
      (ends : ∀ c ∈ rest.head?, isspace c = true) (more : Tokens rest tokens) :
      Begun (word ++ rest) (word :: tokens)

theorem Tokens.skipSpace (split : Tokens text tokens) (done : List Char) :
    ∃ space rest, text = space ++ rest ∧ Begun rest tokens ∧
      Util.skipSpace done text = (done ++ List.replicate space.length '\x00', rest) := by
  cases split with
  | nil blank =>
    refine ⟨text, [], (List.append_nil _).symm, .nil, ?_⟩
    have skipped := @skipSpace_blank [] text done blank (by simp)
    rwa [List.append_nil] at skipped
  | @cons space word rest _ blank whole present ends more =>
    exact ⟨space, word ++ rest, rfl, .cons whole present ends more,
      skipSpace_blank blank (whole.visible present)⟩

theorem stringAt_eq (none : '\x00' ∉ word) (ends : rest = [] ∨ rest.head? = some '\x00') :
    stringAt (done ++ (word ++ rest)) done.length = word := by
  have kept : ∀ c ∈ word, (c != '\x00') = true := by
    intro c member
    simp only [bne_iff_ne, ne_eq]
    rintro rfl
    exact none member
  rw [stringAt, List.drop_left, List.takeWhile_append_of_pos kept]
  rcases ends with rfl | terminated
  · simp
  · cases rest with
    | nil => simp
    | cons c rest =>
      obtain rfl := Option.some.inj terminated
      simp

theorem setargsLoop_word {left : Nat} {argv : List Nat} (whole : Word word) (present : word ≠ [])
    (ends : ∀ c ∈ rest.head?, isspace c = true) :
    setargsLoop (left + 1) done (word ++ rest) argv =
      setargsLoop left (skipSpace (done ++ word) rest).1 (skipSpace (done ++ word) rest).2
        (argv ++ [done.length]) := by
  obtain ⟨c, tail, same⟩ : ∃ c tail, word ++ rest = c :: tail := by
    cases word with
    | nil => contradiction
    | cons c tail => exact ⟨c, tail ++ rest, rfl⟩
  have scanned := @scanToken_word word rest done whole ends
  rw [same] at scanned ⊢
  simp only [setargsLoop, scanned, Option.bind_eq_bind, Option.bind_some]
  cases rest with
  | nil => rfl
  | cons d rest =>
    have blank := ends d rfl
    simp [skipSpace, blank]

/-- As many words as may come are found, each at its offset in the buffer. -/
theorem setargsLoop_begun {left : Nat} {argv : List Nat} (begun : Begun text tokens)
    (none : '\x00' ∉ text) : ∃ more offsets,
      setargsLoop left done text argv = some (done ++ more, argv ++ offsets) ∧
        more.length = text.length ∧ offsets.map (stringAt (done ++ more)) = tokens.take left := by
  induction left generalizing done text argv tokens with
  | zero => exact ⟨text, [], by simp [setargsLoop], rfl, rfl⟩
  | succ left ih =>
    cases begun with
    | nil => exact ⟨[], [], by simp [setargsLoop], rfl, by simp⟩
    | @cons word rest tokens whole present ends more =>
      simp only [List.mem_append, not_or] at none
      obtain ⟨space, rest', split, begun', skipped⟩ := more.skipSpace (done ++ word)
      have none' : '\x00' ∉ rest' := by
        intro member
        exact none.2 (split ▸ List.mem_append_right _ member)
      obtain ⟨more', offsets, looped, length, found⟩ :=
        @ih rest' (done ++ word ++ List.replicate space.length '\x00') tokens (argv ++ [done.length])
          begun' none'
      refine ⟨word ++ (List.replicate space.length '\x00' ++ more'), done.length :: offsets, ?_, ?_, ?_⟩
      · rw [setargsLoop_word whole present ends, skipped, looped]
        simp
      · rw [split]
        simp [length]
      · rw [List.map_cons, List.take_succ_cons]
        congr 1
        · apply stringAt_eq none.1
          cases space with
          | cons c space => exact .inr rfl
          | nil =>
            -- without space behind it the word was the last of the line
            cases begun' with
            | nil => exact .inl (by simpa using List.eq_nil_of_length_eq_zero length)
            | @cons next behind _ whole' present' _ _ =>
              obtain ⟨c, tail, same⟩ : ∃ c tail, next ++ behind = c :: tail := by
                cases next with
                | nil => contradiction
                | cons c tail => exact ⟨c, tail ++ behind, rfl⟩
              have visible := @Word.visible next behind whole' present' c (by rw [same]; rfl)
              have blank := ends c (by rw [split, same]; rfl)
              rw [visible] at blank
              contradiction
        · simpa only [List.append_assoc] using found

theorem setargs_tokens (split : Tokens text tokens) (none : '\x00' ∉ text) (maxArgs : Nat) :
    ∃ buffer offsets, setargs text maxArgs = some (buffer, offsets) ∧
      offsets.map (stringAt buffer) = tokens.take maxArgs := by
  obtain ⟨space, rest, same, begun, skipped⟩ := split.skipSpace []
  have none' : '\x00' ∉ rest := by
    intro member
    exact none (same ▸ List.mem_append_right _ member)
  obtain ⟨more, offsets, looped, -, found⟩ := @setargsLoop_begun _ _ _ maxArgs [] begun none'
  refine ⟨_, offsets, ?_, found⟩
  rw [setargs, skipped]
  simpa using looped

end Scanning

end FomeFw.Util
