import DocCoverage.Proofs.Matching
import DocCoverage.Proofs.Occurrence

/-! # Mentions piece by piece

A document may be read piece by piece, line by line for instance.  What is mentioned in one
of the pieces is mentioned in the whole, and the other way round, if only the text is cut at
characters of no word and the token has none of them.  A token that occurs then lies on one
side of every cut, and to a token beside a cut the character there is what the end of the piece
is (`occurs_append_cons_iff`).  This holds of every token, also of the empty one, which is
mentioned wherever a word begins or ends, and of one that begins with a character of no word
and so needs a word before it.  A token that is refused is found in none of the pieces and not
in the whole. -/

namespace DocCoverage

open Text

/-- **What occurs occurs on one side of a cut.** -/
theorem occurs_append_cons_iff {token left right : List Char} {c : Char}
    (hc : isWord c = false) (htoken : c ∉ token) :
    Occurs token (left ++ c :: right) ↔ Occurs token left ∨ Occurs token right := by
  have hfirst : isWordAt (c :: right).head? = false := hc
  have hlast : isWordAt (left ++ [c]).getLast? = false := by
    rw [List.getLast?_concat]
    exact hc
  constructor
  · intro h
    obtain ⟨n, hat⟩ := occurs_iff_occursAt.mp h
    by_cases hbefore : n + token.length ≤ left.length
    · exact .inl (occurs_iff_occursAt.mpr ⟨n, (occursAt_append_left hfirst hbefore).mp hat⟩)
    · by_cases hbehind : left.length + 1 ≤ n
      · obtain ⟨m, rfl⟩ : ∃ m, n = (left ++ [c]).length + m :=
          ⟨n - (left.length + 1), by rw [List.length_append, List.length_singleton]; omega⟩
        rw [List.append_cons] at hat
        exact .inr (occurs_iff_occursAt.mpr ⟨m, (occursAt_append_right hlast m).mp hat⟩)
      · -- the token would reach across the cut, and so hold its character
        obtain ⟨behind, hbehind⟩ := hat.stands
        have hget : token[left.length - n]? = some c := by
          have hplace := congrArg (·[left.length - n]?) hbehind
          simp only [List.getElem?_drop] at hplace
          rw [List.getElem?_append_left (by omega)] at hplace
          rw [hplace, show n + (left.length - n) = left.length by omega,
            List.getElem?_append_right (Nat.le_refl _), Nat.sub_self]
          rfl
        exact absurd (List.mem_of_getElem? hget) htoken
  · rintro (h | h)
    · exact @occurs_of_part _ [] left (c :: right) rfl hfirst h
    · have hpart := @occurs_of_part _ (left ++ [c]) right [] hlast rfl h
      rwa [List.append_nil, ← List.append_cons] at hpart

/-- What occurs in a text occurs in one of its pieces. -/
theorem occurs_iff_exists_splitOnP {cut : Char → Bool} {token : List Char}
    (hcut : ∀ c, cut c = true → isWord c = false) (htoken : ∀ c ∈ token, cut c = false)
    (text : List Char) :
    Occurs token text ↔ ∃ piece ∈ text.splitOnP cut, Occurs token piece := by
  by_cases hsome : ∃ c ∈ text, cut c = true
  · obtain ⟨c, hmem, hc⟩ := hsome
    obtain ⟨left, right, htext⟩ := List.append_of_mem hmem
    have hlength := congrArg List.length htext
    simp only [List.length_append, List.length_cons] at hlength
    have hout : c ∉ token := by
      intro hin
      rw [htoken c hin] at hc
      cases hc
    rw [htext, List.splitOnP_append_cons left right hc,
      occurs_append_cons_iff (hcut c hc) hout, occurs_iff_exists_splitOnP hcut htoken left,
      occurs_iff_exists_splitOnP hcut htoken right]
    simp only [List.mem_append, or_and_right, exists_or]
  · have hplain : ∀ c ∈ text, cut c = false :=
      fun c hmem => Bool.eq_false_iff.mpr fun hc => hsome ⟨c, hmem, hc⟩
    rw [List.splitOnP_eq_singleton hplain]
    simp only [List.mem_singleton, exists_eq_left]
termination_by text.length

/-- A text cut at every place where the character stands. -/
def cutAt (c : Char) (text : String) : List String :=
  (text.toList.splitOn c).map String.ofList

/-- **A text mentions what one of its pieces mentions.**  It may be cut at any character of
no word, such as the line feed, that the token does not have; neither an empty token nor one
that begins or ends with a character of no word makes a difference. -/
theorem mentions_iff_exists_piece (c : Char) (hc : isWord c = false) (token : String)
    (htoken : c ∉ token.toList) (text : String) :
    mentions text token = true ↔ ∃ piece ∈ cutAt c text, mentions piece token = true := by
  have hcut : ∀ d, (d == c) = true → isWord d = false := by
    intro d hd
    rwa [beq_iff_eq.mp hd]
  have hout : ∀ d ∈ token.toList, (d == c) = false := by
    intro d hd
    rw [beq_eq_false_iff_ne]
    rintro rfl
    exact htoken hd
  rw [mentions_iff, occurs_iff_exists_splitOnP hcut hout, cutAt, List.splitOn_eq_splitOnP]
  constructor
  · rintro ⟨piece, hpiece, h⟩
    refine ⟨String.ofList piece, List.mem_map_of_mem hpiece, mentions_iff.mpr ?_⟩
    rwa [String.toList_ofList]
  · rintro ⟨piece, hpiece, h⟩
    obtain ⟨part, hpart, rfl⟩ := List.mem_map.mp hpiece
    have hoccurs := mentions_iff.mp h
    rw [String.toList_ofList] at hoccurs
    exact ⟨part, hpart, hoccurs⟩

/-- **A token is found in a text exactly when it is found in one of its pieces.** -/
theorem finds_iff_exists_piece (matcher : Matcher) (c : Char) (hc : isWord c = false)
    (token : String) (htoken : c ∉ token.toList) (text : String) :
    matcher.finds text token = .ok true ↔
      ∃ piece ∈ cutAt c text, matcher.finds piece token = .ok true := by
  simp only [Matcher.finds_true_iff, mentions_iff_exists_piece c hc token htoken text]
  constructor
  · rintro ⟨haccepted, piece, hpiece, hmentions⟩
    exact ⟨piece, hpiece, haccepted, hmentions⟩
  · rintro ⟨piece, hpiece, haccepted, hmentions⟩
    exact ⟨haccepted, piece, hpiece, hmentions⟩

/-- A hidden member is found on the line where a word stands right before it, and not on one
where only the line feed does. -/
theorem hidden_member_found :
    isWord '\n' = false ∧ '\n' ∉ ".Hidden".toList ∧
      Matcher.standard.finds ".Hidden\nsee Tower.Hidden" ".Hidden" = .ok true ∧
      Matcher.standard.finds "Tower\n.Hidden" ".Hidden" ≠ .ok true := by
  have hmember : '\n' ∉ ".Hidden".toList := by decide
  have haccepted : Matcher.standard.refusal? ".Hidden" = none := by decide +kernel
  refine ⟨isWord_lineFeed, hmember, ?_, ?_⟩
  · refine (finds_iff_exists_piece .standard '\n' isWord_lineFeed ".Hidden" hmember _).mpr
      ⟨"see Tower.Hidden", by decide +kernel, Matcher.finds_true_iff.mpr ⟨haccepted, ?_⟩⟩
    decide +kernel
  · rw [Ne, finds_iff_exists_piece .standard '\n' isWord_lineFeed ".Hidden" hmember]
    have hpieces : ∀ piece ∈ cutAt '\n' "Tower\n.Hidden", mentions piece ".Hidden" = false := by
      decide +kernel
    rintro ⟨piece, hpiece, hfound⟩
    have hmentions := (Matcher.finds_true_iff.mp hfound).2
    rw [hpieces piece hpiece] at hmentions
    cases hmentions

end DocCoverage
