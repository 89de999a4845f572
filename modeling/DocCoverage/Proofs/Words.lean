import DocCoverage.Proofs.Declarations
import DocCoverage.Proofs.Matching
import DocCoverage.Proofs.Occurrence

/-! # Mentions and words

A text mentions a token where it can be cut around the token so that a word begins or ends
at both cuts, and that is all: which other places have been tried, and whether they overlap
this one, does not matter (`mentions_iff_exists_cut`).  A search for the token says so, unless
it is refused (`finds_iff_exists_cut`).

For a token that is a word itself more can be said.  Its own ends belong to a word, so the
word may not go on beyond them, and the place that the token takes is a whole run of word
characters (`occurs_iff_wordRun`).  These runs are the pieces that are left of a text when it
is cut at all other characters (`mem_words_iff`).  So to ask whether a text mentions a word is
to look the word up among the words of the text, and `GetUser` is not among them where only
`GetUserDetails` stands (`word_found_iff_mem_words`).

A long word is refused and so not found even where it stands alone: `enormous` is. -/

namespace DocCoverage

open Text

/-! ## Places between words -/

/-- The character left of a place. -/
def leftOf (text : List Char) : Nat → Option Char
  | 0 => none
  | n + 1 => text[n]?

/-- Exactly one of the two neighbours of a place is a word character.  Beyond the ends of the
text there is none. -/
def Edge (text : List Char) (n : Nat) : Prop :=
  ¬((∃ c, leftOf text n = some c ∧ isWord c = true) ↔ ∃ c, text[n]? = some c ∧ isWord c = true)

theorem getLast?_take_eq_leftOf {text : List Char} {n : Nat} (hn : n ≤ text.length) :
    (text.take n).getLast? = leftOf text n := by
  cases n with
  | zero => rfl
  | succ n =>
    have hlast : text[n]? = some text[n] := List.getElem?_eq_getElem hn
    rw [List.getLast?_take, if_neg (Nat.succ_ne_zero n), Nat.add_sub_cancel, hlast]
    exact hlast.symm

theorem boundaryAt_iff_edge {text : List Char} {n : Nat} (hn : n ≤ text.length) :
    boundaryAt text n = true ↔ Edge text n := by
  have hword : ∀ neighbour : Option Char,
      isWordAt neighbour = true ↔ ∃ c, neighbour = some c ∧ isWord c = true :=
    fun neighbour => Option.any_eq_true isWord neighbour
  rw [boundaryAt, isBoundary, bne_iff_ne, Ne, Bool.eq_iff_iff, hword, hword, List.head?_drop,
    getLast?_take_eq_leftOf hn]
  rfl

theorem occursBetween_iff {token text before behind : List Char} :
    OccursBetween token text before behind ↔ text = before ++ token ++ behind ∧
      Edge text before.length ∧ Edge text (before ++ token).length := by
  have hplaces : text = before ++ token ++ behind →
      boundaryAt text before.length = isBoundary before.getLast? (token ++ behind).head? ∧
        boundaryAt text (before ++ token).length =
          isBoundary (before ++ token).getLast? behind.head? := by
    rintro rfl
    refine ⟨?_, boundaryAt_length (before ++ token) behind⟩
    rw [List.append_assoc, boundaryAt_length]
  constructor
  · rintro ⟨hsplit, hopens, hcloses⟩
    obtain ⟨hleft, hright⟩ := hplaces hsplit
    refine ⟨hsplit, (boundaryAt_iff_edge ?_).mp (hleft.trans hopens),
      (boundaryAt_iff_edge ?_).mp (hright.trans hcloses)⟩
    all_goals simp [hsplit]
  · rintro ⟨hsplit, hopens, hcloses⟩
    obtain ⟨hleft, hright⟩ := hplaces hsplit
    refine ⟨hsplit, hleft.symm.trans ((boundaryAt_iff_edge ?_).mpr hopens),
      hright.symm.trans ((boundaryAt_iff_edge ?_).mpr hcloses)⟩
    all_goals simp [hsplit]

/-- **A mention is a cut of the text around the token.**  The token stands there character
for character, whatever characters it has and also when it has none, and at either end of it
exactly one of the two neighbouring characters of the text belongs to a word. -/
theorem mentions_iff_exists_cut (text token : String) :
    mentions text token = true ↔ ∃ before behind : String, text = before ++ token ++ behind ∧
      Edge text.toList before.length ∧ Edge text.toList (before ++ token).length := by
  simp only [mentions_iff, Occurs, occursBetween_iff]
  constructor
  · rintro ⟨before, behind, hsplit, hopens, hcloses⟩
    refine ⟨String.ofList before, String.ofList behind, ?_, ?_, ?_⟩
    · rw [← String.toList_inj, String.toList_append, String.toList_append, String.toList_ofList,
        String.toList_ofList]
      exact hsplit
    · rwa [← String.length_toList, String.toList_ofList]
    · rwa [← String.length_toList, String.toList_append, String.toList_ofList]
  · rintro ⟨before, behind, rfl, hopens, hcloses⟩
    rw [← String.length_toList] at hopens hcloses
    have htoken : (before ++ token).toList = before.toList ++ token.toList := String.toList_append
    rw [htoken] at hcloses
    exact ⟨before.toList, behind.toList, by simp only [String.toList_append], hopens, hcloses⟩

/-- **A search finds a token where the text can be cut around it**, if the token is accepted.
A token that is refused ends every search for it with the refusal, wherever it stands. -/
theorem finds_iff_exists_cut (matcher : Matcher) (text token : String) :
    (matcher.finds text token = .ok true ↔
      matcher.refusal? token = none ∧ ∃ before behind : String,
        text = before ++ token ++ behind ∧
          Edge text.toList before.length ∧ Edge text.toList (before ++ token).length) ∧
    ∀ fault, matcher.finds text token = .error fault ↔
      ∃ refusal, matcher.refusal? token = some refusal ∧ fault = .pattern refusal := by
  refine ⟨?_, fun fault => Matcher.finds_error_iff⟩
  rw [Matcher.finds_true_iff, mentions_iff_exists_cut]

/-! ## Cutting a text -/

/-- The part of the text lies between two cuts: no character in it is one, and its neighbours
are, if it has any. -/
def Piece (cut : Char → Bool) (text part : List Char) : Prop :=
  (∀ c ∈ part, cut c = false) ∧ ∃ before behind, text = before ++ part ++ behind ∧
    (∀ c, before.getLast? = some c → cut c = true) ∧ ∀ c, behind.head? = some c → cut c = true

section
variable {cut : Char → Bool} {left right part : List Char} {c : Char}

theorem Piece.append_right (h : Piece cut left part) (hc : cut c = true) :
    Piece cut (left ++ c :: right) part := by
  obtain ⟨hpart, before, behind, rfl, hbefore, hbehind⟩ := h
  refine ⟨hpart, before, behind ++ c :: right, by simp, hbefore, fun d hd => ?_⟩
  cases behind with
  | nil =>
    obtain rfl := Option.some.inj hd
    exact hc
  | cons b behind => exact hbehind d hd

theorem Piece.append_left (h : Piece cut right part) (hc : cut c = true) :
    Piece cut (left ++ c :: right) part := by
  obtain ⟨hpart, before, behind, rfl, hbefore, hbehind⟩ := h
  refine ⟨hpart, left ++ c :: before, behind, by simp, fun d hd => ?_, hbehind⟩
  rw [List.getLast?_append, List.getLast?_cons] at hd
  cases hlast : before.getLast? with
  | none =>
    rw [hlast] at hd
    obtain rfl := Option.some.inj hd
    exact hc
  | some b =>
    rw [hlast] at hd
    obtain rfl := Option.some.inj hd
    exact hbefore b hlast

end

theorem piece_of_mem_splitOnP {cut : Char → Bool} {part : List Char} (text : List Char)
    (h : part ∈ text.splitOnP cut) : Piece cut text part := by
  by_cases hcut : ∃ c ∈ text, cut c = true
  · obtain ⟨c, hmem, hc⟩ := hcut
    obtain ⟨left, right, htext⟩ := List.append_of_mem hmem
    have hlength := congrArg List.length htext
    simp only [List.length_append, List.length_cons] at hlength
    rw [htext, List.splitOnP_append_cons left right hc] at h
    rw [htext]
    rcases List.mem_append.mp h with h | h
    · exact (piece_of_mem_splitOnP left h).append_right hc
    · exact (piece_of_mem_splitOnP right h).append_left hc
  · have hplain : ∀ c ∈ text, cut c = false :=
      fun c hmem => Bool.eq_false_iff.mpr fun hc => hcut ⟨c, hmem, hc⟩
    rw [List.splitOnP_eq_singleton hplain, List.mem_singleton] at h
    subst h
    exact ⟨hplain, [], [], by simp, by simp, by simp⟩
termination_by text.length

/-- **The pieces that are left of a text** are its parts between two cuts. -/
theorem mem_splitOnP_iff {cut : Char → Bool} {text part : List Char} :
    part ∈ text.splitOnP cut ↔ Piece cut text part := by
  refine ⟨piece_of_mem_splitOnP text, ?_⟩
  rintro ⟨hpart, before, behind, rfl, hbefore, hbehind⟩
  have hfirst : part ∈ (part ++ behind).splitOnP cut := by
    cases behind with
    | nil => rw [List.append_nil, List.splitOnP_eq_singleton hpart]; exact List.mem_singleton_self _
    | cons b behind =>
      rw [List.splitOnP_append_cons part behind (hbehind b rfl), List.splitOnP_eq_singleton hpart]
      exact List.mem_cons_self
  rcases List.eq_nil_or_concat before with rfl | ⟨front, last, rfl⟩
  · exact hfirst
  · rw [List.concat_eq_append, List.append_assoc, List.append_assoc, List.singleton_append,
      List.splitOnP_append_cons _ _ (hbefore last (by simp))]
    exact List.mem_append_right _ hfirst

/-! ## The words of a text -/

/-- The words of a text, as often as they stand there: what is left of it when it is cut at
the characters of no word. -/
def words (text : String) : List String :=
  ((text.toList.splitOnP fun c => !isWord c).filter (· ≠ [])).map String.ofList

/-- A longest run of word characters: neither of its neighbours is one. -/
def WordRun (text run : List Char) : Prop :=
  run ≠ [] ∧ (∀ c ∈ run, isWord c = true) ∧ ∃ before behind, text = before ++ run ++ behind ∧
    isWordAt before.getLast? = false ∧ isWordAt behind.head? = false

/-- The token is not empty and has word characters only. -/
structure IsPlainWord (token : String) : Prop where
  ne : token.toList ≠ []
  word : ∀ c ∈ token.toList, isWord c = true

theorem isWordAt_eq_false_iff {neighbour : Option Char} :
    isWordAt neighbour = false ↔ ∀ c, neighbour = some c → isWord c = false := by
  cases neighbour <;> simp

theorem wordRun_iff_piece {text run : List Char} :
    WordRun text run ↔ Piece (fun c => !isWord c) text run ∧ run ≠ [] := by
  simp only [WordRun, Piece, isWordAt_eq_false_iff, Bool.not_eq_true', Bool.not_eq_false']
  exact and_comm

/-- **The words of a text are its longest runs of word characters.** -/
theorem mem_words_iff {text token : String} :
    token ∈ words text ↔ WordRun text.toList token.toList := by
  rw [wordRun_iff_piece, ← mem_splitOnP_iff, words, List.mem_map]
  constructor
  · rintro ⟨run, hrun, rfl⟩
    obtain ⟨hmem, hne⟩ := List.mem_filter.mp hrun
    rw [String.toList_ofList]
    exact ⟨hmem, of_decide_eq_true hne⟩
  · rintro ⟨hmem, hne⟩
    exact ⟨token.toList, List.mem_filter.mpr ⟨hmem, decide_eq_true hne⟩, String.ofList_toList⟩

/-- **A word occurs where it is a whole run.**  It begins and ends in word characters, so a
boundary at its ends means that its neighbours are none. -/
theorem occurs_iff_wordRun {token text : List Char} (hne : token ≠ [])
    (hword : ∀ c ∈ token, isWord c = true) : Occurs token text ↔ WordRun text token := by
  have hopens : ∀ before behind : List Char,
      isBoundary before.getLast? (token ++ behind).head? = true ↔
        isWordAt before.getLast? = false := by
    intro before behind
    rw [isBoundary, List.head?_append, List.head?_eq_some_head hne, Option.some_or, isWordAt_some,
      hword _ (List.head_mem hne)]
    simp
  have hcloses : ∀ before behind : List Char,
      isBoundary (before ++ token).getLast? behind.head? = true ↔
        isWordAt behind.head? = false := by
    intro before behind
    rw [isBoundary, List.getLast?_append, List.getLast?_eq_some_getLast hne, Option.some_or,
      isWordAt_some, hword _ (List.getLast_mem hne)]
    simp
  constructor
  · rintro ⟨before, behind, hsplit, hleft, hright⟩
    exact ⟨hne, hword, before, behind, hsplit, (hopens before behind).mp hleft,
      (hcloses before behind).mp hright⟩
  · rintro ⟨-, -, before, behind, hsplit, hleft, hright⟩
    exact ⟨before, behind, hsplit, (hopens before behind).mpr hleft,
      (hcloses before behind).mpr hright⟩

theorem IsPlainWord.mentions_iff {text token : String} (h : IsPlainWord token) :
    mentions text token = true ↔ token ∈ words text := by
  rw [DocCoverage.mentions_iff, occurs_iff_wordRun h.ne h.word, mem_words_iff]

/-- Every declared name is a word. -/
theorem isPlainWord_of_mem_declaredNames {source beginning name : String}
    (h : name ∈ declaredNames source beginning) : IsPlainWord name := by
  obtain ⟨⟨d, hd, hname⟩, -⟩ := mem_declaredNames.mp h
  have hwritten := Declaration.wellFormed_of_mem_all hd
  exact ⟨hname ▸ hwritten.name_ne, hname ▸ hwritten.name_word⟩

/-- A word is a word of itself. -/
theorem IsPlainWord.mem_words_self {token : String} (h : IsPlainWord token) :
    token ∈ words token :=
  mem_words_iff.mpr ⟨h.ne, h.word, [], [], by simp, rfl, rfl⟩

/-- Of words those are not mentioned that are not among the words of the text. -/
theorem unmentioned_eq_filter_words {identifiers : List String}
    (hplain : ∀ identifier ∈ identifiers, IsPlainWord identifier) (text : String) :
    unmentioned identifiers text = identifiers.filter (· ∉ words text) := by
  refine List.filter_congr fun identifier hmem => ?_
  rw [Bool.eq_iff_iff, Bool.not_eq_true', decide_eq_true_iff, ← Bool.not_eq_true,
    (hplain identifier hmem).mentions_iff]

/-- **A word is found exactly where it is among the words of the text**, if it is accepted.
This holds of every token that is not empty and has word characters only, as declared names do.
The words of a text are its longest runs of word characters.  So of any list of such tokens,
none of them refused, those are missing, in their order and as often as given, that are not
among these words; the first that is refused ends the search with the refusal. -/
theorem word_found_iff_mem_words (matcher : Matcher) (text : String) :
    (∀ token, IsPlainWord token → (matcher.finds text token = .ok true ↔
      matcher.refusal? token = none ∧ token ∈ words text)) ∧
    (∀ token, token ∈ words text ↔ WordRun text.toList token.toList) ∧
    (∀ identifiers : List String, (∀ identifier ∈ identifiers, IsPlainWord identifier) →
      (matcher.Accepts identifiers →
        matcher.missing text identifiers = .ok (identifiers.filter (· ∉ words text))) ∧
      ∀ refusal, matcher.firstRefusal? identifiers = some refusal →
        matcher.missing text identifiers = .error (.pattern refusal)) ∧
    ∀ source beginning : String, ∀ name ∈ declaredNames source beginning, IsPlainWord name := by
  refine ⟨fun token h => ?_, fun token => mem_words_iff, fun identifiers hplain => ⟨?_, ?_⟩,
    fun source beginning name => isPlainWord_of_mem_declaredNames⟩
  · rw [Matcher.finds_true_iff, h.mentions_iff]
  · intro haccepts
    rw [Matcher.missing_of_accepts haccepts, unmentioned_eq_filter_words hplain]
  · intro refusal hrefused
    exact Matcher.missing_error_iff.mpr ⟨refusal, hrefused, rfl⟩

/-- A word is not mentioned by a longer one, and it is missing as often as it is asked for. -/
theorem getUser_not_found :
    IsPlainWord "GetUser" ∧ "see" ∈ words "see `GetUserDetails`" ∧
      Matcher.standard.finds "see `GetUserDetails`" "GetUser" ≠ .ok true ∧
      Matcher.standard.missing "see `GetUserDetails`" ["GetUser", "see", "GetUser"] =
        .ok ["GetUser", "GetUser"] := by
  have hword : IsPlainWord "GetUser" :=
    ⟨by decide, List.all_eq_true.mp (by decide +kernel : "GetUser".toList.all isWord = true)⟩
  have hsee : IsPlainWord "see" :=
    ⟨by decide, List.all_eq_true.mp (by decide +kernel : "see".toList.all isWord = true)⟩
  have hwords : words "see `GetUserDetails`" = ["see", "GetUserDetails"] := by decide +kernel
  have haccepts : Matcher.standard.Accepts ["GetUser", "see", "GetUser"] := by decide +kernel
  obtain ⟨hfinds, -, hmissing, -⟩ := word_found_iff_mem_words .standard "see `GetUserDetails`"
  rw [hwords] at hfinds hmissing ⊢
  refine ⟨hword, by decide, ?_, ?_⟩
  · rw [Ne, hfinds _ hword]
    decide
  · rw [(hmissing _ (by simp [hword, hsee])).1 haccepts]
    exact congrArg Except.ok (by decide)

/-! ## Words that are refused -/

theorem isPlainWord_letters {n : Nat} (hn : n ≠ 0) : IsPlainWord (letters n) where
  ne := by
    rw [letters, String.toList_ofList]
    simpa using hn
  word := by
    intro c hc
    rw [letters, String.toList_ofList] at hc
    rw [List.eq_of_mem_replicate hc]
    decide

theorem isPlainWord_enormous : IsPlainWord enormous := isPlainWord_letters (by decide)

/-- A word can be cut out of itself. -/
theorem IsPlainWord.exists_cut_self {token : String} (h : IsPlainWord token) :
    ∃ before behind : String, token = before ++ token ++ behind ∧
      Edge token.toList before.length ∧ Edge token.toList (before ++ token).length :=
  (mentions_iff_exists_cut token token).mp (h.mentions_iff.mpr h.mem_words_self)

/-- **A cut around a token is not enough.**  There is one around the enormous word in a text
that holds nothing else, and the search for it fails. -/
theorem enormous_not_found :
    (∃ before behind : String, enormous = before ++ enormous ++ behind ∧
        Edge enormous.toList before.length ∧
          Edge enormous.toList (before ++ enormous).length) ∧
      Matcher.standard.finds enormous enormous =
        .error (.pattern "Compiled regex exceeds size limit of 10485760 bytes.") :=
  ⟨isPlainWord_enormous.exists_cut_self,
    Matcher.finds_of_refused Matcher.standard_refuses_enormous enormous⟩

/-- **Being a word of the text is not enough.**  The enormous word is one of a text that holds
nothing else, and what that text lacks of the list of this word alone cannot be said. -/
theorem enormous_not_looked_up :
    IsPlainWord enormous ∧ enormous ∈ words enormous ∧
      Matcher.standard.missing enormous [enormous] =
        .error (.pattern "Compiled regex exceeds size limit of 10485760 bytes.") :=
  ⟨isPlainWord_enormous, isPlainWord_enormous.mem_words_self,
    Matcher.missing_cons_of_refused Matcher.standard_refuses_enormous enormous []⟩

end DocCoverage
