import JavaAudit.Source.Lexeme
import Mathlib.Data.List.Infix
import Mathlib.Data.List.TakeWhile

/-! How the tokens of a source lie in its text. Between two tokens there is nothing but blanks and
comments, words are made of the characters of names, and the rows of the tokens never go back. -/
namespace JavaAudit.Source
open JavaAudit.Text

theorem rowAfter (p : Place) (text : List Char) :
    (p.after text).row = p.row + text.count '\n' := by
  induction text generalizing p with
  | nil => rfl
  | cons c rest ih =>
    have first : (p.step c).row = p.row + if c = '\n' then 1 else 0 := by
      unfold Place.step
      split <;> rfl
    have unfolded : p.after (c :: rest) = (p.step c).after rest := rfl
    rw [unfolded, ih, first, List.count_cons, Nat.add_right_comm, Nat.add_assoc]
    simp only [beq_iff_eq]

inductive IsComment : List Char → Prop
  | line {words : List Char} (oneLine : '\n' ∉ words) : IsComment ('/' :: '/' :: words)
  | block {words : List Char} (unclosed : ¬ ['*', '/'] <:+: words) :
      IsComment ('/' :: '*' :: (words ++ ['*', '/']))

theorem blockCommentTaken {cs : List Char} {n : Nat} (found : blockCommentEnd cs = some n) :
    ∃ words, cs.take n = words ++ ['*', '/'] ∧ ¬ ['*', '/'] <:+: words := by
  fun_induction blockCommentEnd cs generalizing n with
  | case1 rest =>
    cases found
    exact ⟨[], rfl, by simp⟩
  | case2 c rest other ih =>
    obtain ⟨m, later, rfl⟩ := Option.map_eq_some_iff.mp found
    obtain ⟨words, taken, unclosed⟩ := ih later
    refine ⟨c :: words, by rw [List.take_succ_cons, taken, List.cons_append], fun within => ?_⟩
    rcases List.infix_cons_iff.mp within with ⟨after, first⟩ | inner
    · -- The mark would begin at `c`, where the search found none.
      obtain ⟨rfl, rfl⟩ := List.cons.inj first
      exact other _ rfl (by rw [← List.take_append_drop m rest, taken]; rfl)
    · exact unclosed inner
  | case3 => cases found

theorem commentTaken {cs : List Char} (filled : commentLength cs ≠ 0) :
    IsComment (cs.take (commentLength cs)) := by
  unfold commentLength at filled ⊢
  split
  · next rest =>
    have words : ('/' :: '/' :: rest).take (2 + (rest.takeWhile (· != '\n')).length) =
        '/' :: '/' :: rest.takeWhile (· != '\n') := by
      rw [Nat.add_comm, List.take_succ_cons, List.take_succ_cons,
        ← List.prefix_iff_eq_take.mp (List.takeWhile_prefix _)]
    rw [words]
    refine .line fun mem => ?_
    simpa using List.mem_takeWhile_imp mem
  · next rest =>
    cases found : blockCommentEnd rest with
    | none => simp [found] at filled
    | some n =>
      obtain ⟨words, taken, unclosed⟩ := blockCommentTaken found
      rw [Option.map_some, Option.getD_some, List.take_succ_cons, List.take_succ_cons, taken]
      exact .block unclosed
  · simp_all

inductive Gap : List Char → Prop
  | none : Gap []
  | blank {c : Char} {rest : List Char} (isBlank : isGap c = true) (more : Gap rest) : Gap (c :: rest)
  | comment {first rest : List Char} (isComment : IsComment first) (more : Gap rest) :
      Gap (first ++ rest)

theorem Gap.blanks {blanks rest : List Char} (all : ∀ c ∈ blanks, isGap c = true) (more : Gap rest) :
    Gap (blanks ++ rest) := by
  induction blanks with
  | nil => exact more
  | cons c blanks ih =>
    obtain ⟨first, others⟩ := List.forall_mem_cons.mp all
    exact .blank first (ih others)

theorem gapTaken (bound : Nat) (cs : List Char) : Gap (cs.take (gapLength bound cs)) := by
  induction bound generalizing cs with
  | zero => exact .none
  | succ bound ih =>
    simp only [gapLength]
    split
    · exact .none
    · rw [List.take_add, List.take_add, List.append_assoc,
        ← List.prefix_iff_eq_take.mp (List.takeWhile_prefix _)]
      refine .blanks (fun c mem => List.mem_takeWhile_imp mem) ?_
      by_cases filled : commentLength (cs.drop (cs.takeWhile isGap).length) = 0
      · rw [filled]
        exact ih _
      · exact .comment (commentTaken filled) (ih _)

theorem textNoWord {texts others : List OpenText} {block : Bool} {before : Nat}
    {closes opens : TokenKind} {rest : List Char} (closed : closes ≠ .word) (opened : opens ≠ .word) :
    ((textLexeme texts block before closes opens rest).getD ⟨.stray, 1, others⟩).kind ≠ .word := by
  unfold textLexeme
  split
  · exact closed
  · exact opened
  · simp

theorem signNoWord (texts : List OpenText) (cs : List Char) :
    (signLexeme texts cs).kind ≠ .word := by
  unfold signLexeme
  split
  · simp
  · split <;> simp

theorem wordTaken (texts : List OpenText) (cs : List Char) :
    (lexeme texts cs).kind = .word →
      ∀ c ∈ cs.take (lexeme texts cs).length, continuesName c = true := by
  fun_cases lexeme texts cs
  case case9 first rest _ _ _ opens _ _ _ =>
    rintro - c mem
    rw [Nat.add_comm, List.take_succ_cons,
      ← List.prefix_iff_eq_take.mp (List.takeWhile_prefix _)] at mem
    rcases List.mem_cons.mp mem with rfl | mem
    · exact continuesOfOpens opens
    · exact List.mem_takeWhile_imp mem
  case case1 | case2 | case7 =>
    exact fun word => absurd word (textNoWord (by decide) (by decide))
  case case11 none _ _ _ =>
    rw [none]
    exact fun word => absurd word (signNoWord _ _)
  case case10 found _ _ _ =>
    rw [found]
    nofun
  case case12 => exact fun word => absurd word (signNoWord _ _)
  all_goals nofun

/-- Tokens as they lie in a text from a place on, each behind a gap of blanks and comments. -/
inductive Lexed : Place → List Char → List Token → Prop
  | done (place : Place) (cs : List Char) : Lexed place cs []
  | token {place : Place} {cs gap taken rest : List Char} {token : Token} {tokens : List Token}
      (spelt : gap ++ (taken ++ rest) = cs) (between : Gap gap)
      (lead : token.lead = String.ofList gap) (text : token.text = String.ofList taken)
      (start : token.start = place.after gap) (stop : token.stop = token.start.after taken)
      (name : token.kind = .word → ∀ c ∈ taken, continuesName c = true)
      (more : Lexed token.stop rest tokens) : Lexed place cs (token :: tokens)

theorem tokensLexed (bound : Nat) (texts : List OpenText) (place : Place) (cs : List Char) :
    Lexed place cs (tokensFrom bound texts place cs) := by
  induction bound generalizing texts place cs with
  | zero => exact .done place cs
  | succ bound ih =>
    simp only [tokensFrom]
    split
    · exact .done place cs
    · have whole := List.prefix_iff_eq_append.mp (List.take_prefix (gapLength cs.length cs) cs)
      exact .token (by rw [List.take_append_drop, whole]) (gapTaken cs.length cs) rfl rfl rfl rfl
        (wordTaken texts _) (ih _ _ _)

theorem lexedRows {place : Place} {cs : List Char} {ts : List Token} (lexed : Lexed place cs ts) :
    (∀ t ∈ ts, place.row ≤ t.start.row ∧ t.start.row ≤ t.stop.row ∧
      t.stop.row ≤ place.row + cs.count '\n') ∧
    ts.Pairwise fun a b => a.stop.row ≤ b.start.row := by
  induction lexed with
  | done place cs => simp
  | @token place cs gap taken rest token tokens spelt between lead text start stop name more ih =>
    have first : token.start.row = place.row + gap.count '\n' := by rw [start, rowAfter]
    have last : token.stop.row = token.start.row + taken.count '\n' := by rw [stop, rowAfter]
    obtain ⟨later, order⟩ := ih
    rw [← spelt, List.count_append, List.count_append]
    refine ⟨List.forall_mem_cons.mpr ⟨by omega, fun t mem => ?_⟩, List.pairwise_cons.mpr ⟨?_, order⟩⟩
    · have := later t mem
      omega
    · exact fun t mem => (later t mem).1

theorem lexedWords {place : Place} {cs : List Char} {ts : List Token} (lexed : Lexed place cs ts) :
    ∀ t ∈ ts, t.kind = .word → ∀ c ∈ t.text.toList, continuesName c = true := by
  induction lexed with
  | done place cs => simp
  | token spelt between lead text start stop name more ih =>
    refine List.forall_mem_cons.mpr ⟨fun word => ?_, ih⟩
    rw [text, String.toList_ofList]
    exact name word

theorem lexedGaps {place : Place} {cs : List Char} {ts : List Token} (lexed : Lexed place cs ts) :
    ∀ t ∈ ts, Gap t.lead.toList := by
  induction lexed with
  | done place cs => simp
  | token spelt between lead text start stop name more ih =>
    refine List.forall_mem_cons.mpr ⟨?_, ih⟩
    rw [lead, String.toList_ofList]
    exact between

theorem sourceLexed (source : String) :
    ∃ place cs ts, ∃ lead : Token → String, place.row = 0 ∧
      cs.count '\n' = source.toList.count '\n' ∧ Lexed place cs ts ∧
      tokens source = ts.modifyHead fun t => { t with lead := lead t } := by
  simp only [tokens]
  by_cases marked : source.toList.head? = some byteOrderMark
  · rw [if_pos marked]
    cases shape : source.toList with
    | nil => simp [shape] at marked
    | cons c cs =>
      have mark : c = byteOrderMark := by simpa [shape] using marked
      refine ⟨_, cs, _, fun t => String.singleton byteOrderMark ++ t.lead, rfl, ?_,
        tokensLexed (c :: cs).length [] (Place.step {} byteOrderMark) cs, ?_⟩
      · rw [List.count_cons_of_ne (by rw [mark]; decide)]
      · rw [List.drop_succ_cons, List.drop_zero]
        split
        · next found => rw [found, List.modifyHead_cons]
        · next found => rw [found, List.modifyHead_nil]
  · rw [if_neg marked]
    refine ⟨{}, _, _, Token.lead, rfl, rfl, tokensLexed (source.toList.length + 1) [] {} _, ?_⟩
    exact (congrFun List.modifyHead_id _).symm

theorem sourceRows (source : String) :
    (∀ t ∈ tokens source, t.start.row ≤ t.stop.row ∧ t.stop.row ≤ source.toList.count '\n') ∧
    (tokens source).Pairwise fun a b => a.stop.row ≤ b.start.row := by
  obtain ⟨place, cs, ts, lead, top, rows, lexed, same⟩ := sourceLexed source
  obtain ⟨inside, order⟩ := lexedRows lexed
  rw [top, rows, Nat.zero_add] at inside
  have within : ∀ t ∈ ts, t.start.row ≤ t.stop.row ∧ t.stop.row ≤ source.toList.count '\n' :=
    fun t mem => (inside t mem).2
  rw [same]
  cases ts with
  | nil => simp
  | cons first others =>
    rw [List.modifyHead_cons]
    exact ⟨List.forall_mem_cons.mpr (List.forall_mem_cons.mp within),
      List.pairwise_cons.mpr (List.pairwise_cons.mp order)⟩

theorem sourceWords (source : String) :
    ∀ t ∈ tokens source, t.kind = .word → ∀ c ∈ t.text.toList, continuesName c = true := by
  obtain ⟨place, cs, ts, lead, -, -, lexed, same⟩ := sourceLexed source
  rw [same]
  cases ts with
  | nil => simp
  | cons first others =>
    rw [List.modifyHead_cons]
    exact List.forall_mem_cons.mpr (List.forall_mem_cons.mp (lexedWords lexed))

theorem sourceGaps (source : String) : ∀ t ∈ (tokens source).tail, Gap t.lead.toList := by
  obtain ⟨place, cs, ts, lead, -, -, lexed, same⟩ := sourceLexed source
  rw [same]
  cases ts with
  | nil => simp
  | cons first others => exact (List.forall_mem_cons.mp (lexedGaps lexed)).2

end JavaAudit.Source
