import MessageSelector.Proofs.Lexical.Lexemes
import MessageSelector.Proofs.Spelling

/-!
# Cutting a text into lexemes

`Cut front lexemes back` says that a text is cut into lexemes as far as `front` goes, with `back`
behind it. Cuts are put side by side and moved in front of other texts, and `cut_of_scan` finds one
wherever no token of a text stands on both sides of a place.
-/

namespace MessageSelector

open Lexeme (Written Ends)

/-! ## Cuts -/

/-- In front of `back` the text is cut into the lexemes. -/
inductive Cut : List Char → List Lexeme → List Char → Prop where
  | nil (back) : Cut [] [] back
  | layout {c front lexemes back} :
      isLayout c = true → Cut front lexemes back → Cut (c :: front) lexemes back
  | lexeme {lexeme source front lexemes back} :
      Written lexeme source → Ends lexeme (front ++ back) → Cut front lexemes back →
      Cut (source ++ front) (lexeme :: lexemes) back

/-- A lexeme has characters. -/
theorem Lexeme.Written.ne_nil {lexeme : Lexeme} {source : List Char} (h : Written lexeme source) :
    source ≠ [] := by
  cases h with
  | float h => exact h.ne_nil
  | integer h => exact h.ne_nil
  | string => simp [Text.quote]
  | comparison op => cases op <;> simp [Comparison.symbol]
  | _ => simp

variable {before front middle back : List Char} {ls ms : List Lexeme}

/-- A text is scanned to the lexemes it is cut into. -/
theorem Cut.lexemes (h : Cut front ls back) :
    Token.lexemes (front ++ back) = ls ++ Token.lexemes back := by
  induction h with
  | nil => rfl
  | layout hc _ ih => rw [List.cons_append, Token.lexemes_layout hc, ih]
  | @lexeme lexeme source front ls back hwritten hends _ ih =>
      obtain ⟨c, source, rfl⟩ := List.exists_cons_of_ne_nil hwritten.ne_nil
      obtain ⟨hlayout, hfront⟩ := hwritten.at_front hends
      rw [List.append_assoc, List.cons_append, Token.lexemes_cons hlayout, hfront, List.drop_left,
        ih, List.cons_append]

/-- A whole text is scanned to the tokens of the lexemes it is cut into, and its end. -/
theorem Cut.scanned (h : Cut front ls []) :
    ∃ tokens stop, Token.scan front = tokens ++ [⟨.endOfText, stop⟩] ∧
      tokens.map (·.lexeme) = ls := by
  have hlexemes := h.lexemes
  rw [List.append_nil] at hlexemes
  exact Token.scan_of_lexemes hlexemes

/-- Cuts one after the other are a cut. -/
theorem Cut.append (h : Cut front ls (middle ++ back)) (hmiddle : Cut middle ms back) :
    Cut (front ++ middle) (ls ++ ms) back := by
  generalize hbehind : middle ++ back = behind at h
  induction h with
  | nil => exact hmiddle
  | layout hc _ ih => exact .layout hc (ih hbehind)
  | lexeme hwritten hends _ ih =>
      rw [List.append_assoc, List.cons_append]
      refine .lexeme hwritten ?_ (ih hbehind)
      rwa [List.append_assoc, hbehind]

/-- A cut goes on to the end of a text. -/
theorem Cut.append_last (h : Cut front ls middle) (hmiddle : Cut middle ms []) :
    Cut (front ++ middle) (ls ++ ms) [] :=
  Cut.append (by rwa [List.append_nil]) hmiddle

/-- Whether a lexeme ends in front of a text is settled where the text begins. -/
theorem ends_append {lexeme : Lexeme} {behind : List Char} (h : Ends lexeme (front ++ back))
    (hends : Ends lexeme back → Ends lexeme behind) : Ends lexeme (front ++ behind) := by
  cases front with
  | nil => exact hends h
  | cons c front => exact h

/-- A cut stands in front of any text where its lexemes end. -/
theorem Cut.followed (h : Cut front ls back) {behind : List Char}
    (hends : ∀ lexeme ∈ ls, Ends lexeme back → Ends lexeme behind) : Cut front ls behind := by
  induction h with
  | nil => exact .nil behind
  | layout hc _ ih => exact .layout hc (ih hends)
  | @lexeme lexeme source front ls back hwritten hend _ ih =>
      exact .lexeme hwritten (ends_append hend (hends lexeme List.mem_cons_self))
        (ih fun other hother => hends other (List.mem_cons_of_mem _ hother))

/-- Layout alone is cut into nothing. -/
theorem cut_layout (h : front.all isLayout = true) (back : List Char) : Cut front [] back := by
  induction front with
  | nil => exact .nil back
  | cons c front ih =>
      rw [List.all_cons, Bool.and_eq_true] at h
      exact .layout h.1 (ih h.2)

/-- A single lexeme is cut off where it ends. -/
theorem cut_written {lexeme : Lexeme} (h : Written lexeme front) (hends : Ends lexeme back) :
    Cut front [lexeme] back := by
  rw [← List.append_nil front]
  exact .lexeme h hends (.nil back)

/-- Every lexeme ends at the end of a text and in front of layout, parentheses and commas. -/
def Breaks : List Char → Prop
  | [] => True
  | c :: _ => isLayout c = true ∨ c ∈ ['(', ')', ',']

/-- Where a text breaks, every lexeme ends. -/
theorem Breaks.ends (h : Breaks back) (lexeme : Lexeme) : Ends lexeme back := by
  cases back with
  | nil => rfl
  | cons c back =>
      have hc : isWordChar c = false ∧ c ≠ '.' ∧ c ≠ '\'' ∧ c ≠ '=' ∧ c ≠ '>' := by
        simp only [Breaks, isLayout, Bool.or_eq_true, decide_eq_true_eq, List.mem_cons,
          List.not_mem_nil, or_false] at h
        rcases h with ((((rfl | rfl) | rfl) | rfl) | rfl) | rfl | rfl | rfl <;> decide
      obtain ⟨hword, hpoint, hquote, hequal, hgreater⟩ := hc
      simp only [Ends, List.head?_cons, Option.any_some]
      unfold Lexeme.goesOn
      split <;> simp [hword, hpoint, hquote, hequal, hgreater]

/-- A parenthesis is a lexeme whatever stands behind it. -/
theorem cut_paren {lexeme : Lexeme} {c : Char} (hwritten : Written lexeme [c])
    (hfixed : lexeme.goesOn = fun _ => false) (back : List Char) : Cut [c] [lexeme] back := by
  refine cut_written hwritten ?_
  unfold Ends
  rw [hfixed]
  cases back <;> rfl

/-- A text in parentheses is cut as it is without them, whatever stands behind it. -/
theorem Cut.group (h : Cut front ls middle) (back : List Char) :
    Cut ('(' :: front ++ [')']) (.leftParen :: ls ++ [.rightParen]) back := by
  have hclose : Breaks ([')'] ++ back) := .inr (by simp)
  have hinner := h.followed fun lexeme _ _ => hclose.ends lexeme
  exact (cut_paren .leftParen rfl _).append (hinner.append (cut_paren .rightParen rfl back))

/-! ## Places -/

namespace Token

/-- Characters skipped are as good as dropped, but for their place. -/
theorem scan_from_skip (position : Nat) (source rest : List Char) :
    scanFrom [] position source.length (source ++ rest) =
      scanFrom [] (position + byteCount source) 0 rest := by
  induction source generalizing position with
  | nil => rfl
  | cons c source ih =>
      rw [List.cons_append, List.length_cons, scanFrom, ih, byte_count_cons, Nat.add_assoc]

/-- Layout is skipped. -/
theorem scan_from_layout {c : Char} (h : isLayout c = true) (position : Nat) (rest : List Char) :
    scanFrom [] position 0 (c :: rest) = scanFrom [] (position + c.utf8Size) 0 rest := by
  rw [scanFrom, if_pos h]

/-- The first token of a text, and then those of what it leaves. -/
theorem scan_from_cons {c : Char} (h : isLayout c = false) (position : Nat) (rest : List Char) :
    scanFrom [] position 0 (c :: rest) =
      ⟨(Lexeme.atFront c rest).1,
        ⟨position, c.utf8Size + byteCount (rest.take (Lexeme.atFront c rest).2)⟩⟩ ::
          scanFrom [] (position + c.utf8Size) (Lexeme.atFront c rest).2 rest := by
  rw [scanFrom, if_neg (by rw [h]; decide)]
  exact scan_from_found [_] _ _ _

/-- Where a token of a text begins, the text is scanned to it and those that follow it. -/
theorem scan_from_token {before text : List Char} {skip : Nat} {tokens following : List Token}
    {token : Token} (h : scanFrom [] (byteCount before) skip text = tokens ++ token :: following)
    (hend : token.lexeme ≠ .endOfText) :
    ∃ front c rest, before ++ text = front ++ c :: rest ∧ isLayout c = false ∧
      scanFrom [] (byteCount front) 0 (c :: rest) = token :: following := by
  induction text generalizing before skip tokens with
  | nil =>
      have hmem : token ∈ scanFrom [] (byteCount before) skip [] := by
        rw [h]
        exact List.mem_append_right _ List.mem_cons_self
      rw [scanFrom, List.reverse_singleton, List.mem_singleton] at hmem
      rw [hmem] at hend
      exact absurd rfl hend
  | cons c rest ih =>
      have hstep {skip : Nat} {tokens : List Token}
          (h : scanFrom [] (byteCount before + c.utf8Size) skip rest =
            tokens ++ token :: following) :
          ∃ front d more, before ++ c :: rest = front ++ d :: more ∧ isLayout d = false ∧
            scanFrom [] (byteCount front) 0 (d :: more) = token :: following := by
        have hbefore : byteCount before + c.utf8Size = byteCount (before ++ [c]) := by simp
        rw [hbefore] at h
        simpa using ih h
      cases skip with
      | succ skip => exact hstep h
      | zero =>
          cases hlayout : isLayout c with
          | true =>
              rw [scan_from_layout hlayout] at h
              exact hstep h
          | false =>
              cases tokens with
              | nil => exact ⟨before, c, rest, rfl, hlayout, h⟩
              | cons first tokens =>
                  rw [scan_from_cons hlayout] at h
                  exact hstep (List.cons.inj h).2

/-- Where a token of a whole text begins, the text is scanned to it and those that follow it. -/
theorem scan_at_token {text : List Char} {tokens following : List Token} {token : Token}
    (h : scan text = tokens ++ token :: following) (hend : token.lexeme ≠ .endOfText) :
    ∃ front c rest, text = front ++ c :: rest ∧ isLayout c = false ∧
      scanFrom [] (byteCount front) 0 (c :: rest) = token :: following :=
  have hfrom : scanFrom [] (byteCount []) 0 text = tokens ++ token :: following := h
  scan_from_token hfrom hend

/-- The first token of a text that begins with a lexeme, and then those of what is behind it. -/
theorem scan_from_written {lexeme : Lexeme} (hwritten : Written lexeme front)
    (hends : Ends lexeme back) (position : Nat) :
    scanFrom [] position 0 (front ++ back) =
      ⟨lexeme, ⟨position, byteCount front⟩⟩ ::
        scanFrom [] (position + byteCount front) 0 back := by
  obtain ⟨c, source, rfl⟩ := List.exists_cons_of_ne_nil hwritten.ne_nil
  obtain ⟨hlayout, hfront⟩ := hwritten.at_front hends
  rw [List.cons_append, scan_from_cons hlayout, hfront]
  simp only [scan_from_skip, List.take_left, byte_count_cons, Nat.add_assoc]

/-- What is cut into lexemes is scanned to the same tokens in front of any text where they end. -/
theorem scan_from_cut_followed (h : Cut front ls back) (position : Nat) :
    ∃ tokens, tokens.map (·.lexeme) = ls ∧ ∀ behind,
      (∀ lexeme ∈ ls, Ends lexeme back → Ends lexeme behind) →
      scanFrom [] position 0 (front ++ behind) =
        tokens ++ scanFrom [] (position + byteCount front) 0 behind := by
  induction h generalizing position with
  | nil => exact ⟨[], rfl, fun _ _ => rfl⟩
  | @layout c front _ _ hc _ ih =>
      obtain ⟨tokens, hlexemes, hscan⟩ := ih (position + c.utf8Size)
      refine ⟨tokens, hlexemes, fun behind hends => ?_⟩
      rw [List.cons_append, scan_from_layout hc, hscan behind hends, byte_count_cons, Nat.add_assoc]
  | @lexeme lexeme source front ls back hwritten hend _ ih =>
      obtain ⟨tokens, rfl, hscan⟩ := ih (position + byteCount source)
      refine ⟨⟨lexeme, ⟨position, byteCount source⟩⟩ :: tokens, rfl, fun behind hends => ?_⟩
      have hbehind := ends_append hend (hends lexeme List.mem_cons_self)
      rw [List.append_assoc, scan_from_written hwritten hbehind,
        hscan behind fun other hother => hends other (List.mem_cons_of_mem _ hother),
        byte_count_append, Nat.add_assoc, List.cons_append]

/-- What is cut into lexemes is scanned to their tokens, and then comes what stands behind it. -/
theorem scan_from_cut (h : Cut front ls back) (position : Nat) :
    ∃ tokens, tokens.map (·.lexeme) = ls ∧ scanFrom [] position 0 (front ++ back) =
      tokens ++ scanFrom [] (position + byteCount front) 0 back := by
  obtain ⟨tokens, hlexemes, hscan⟩ := scan_from_cut_followed h position
  exact ⟨tokens, hlexemes, hscan back fun _ _ hends => hends⟩

/-- A quote that no other closes is scanned to an open string, up to the end of the text. -/
theorem scan_from_open (contents : List Char) (position : Nat) :
    scanFrom [] position 0 ('\'' :: Text.doubleQuotes contents) =
      [⟨.unclosedString, ⟨position, byteCount ('\'' :: Text.doubleQuotes contents)⟩⟩,
        ⟨.endOfText, ⟨position + byteCount ('\'' :: Text.doubleQuotes contents), 0⟩⟩] := by
  have hfront : Lexeme.atFront '\'' (Text.doubleQuotes contents) =
      (.unclosedString, (Text.doubleQuotes contents).length) := by
    change Lexeme.stringAt _ = _
    rw [Lexeme.stringAt, Lexeme.string_contents_open]
  have hskip := scan_from_skip (position + '\''.utf8Size) (Text.doubleQuotes contents) []
  rw [List.append_nil] at hskip
  rw [scan_from_cons (by decide), hfront, List.take_length, hskip, byte_count_cons, Nat.add_assoc]
  rfl

/-- No token begins before the text, or inside what is skipped, and only the end is empty. -/
theorem span_of_scan_from {position skip : Nat} {text : List Char} {token : Token}
    (h : token ∈ scanFrom [] position skip text) :
    position + byteCount (text.take skip) ≤ token.span.start ∧
      (token.lexeme ≠ .endOfText → 0 < token.span.length) := by
  induction text generalizing position skip with
  | nil =>
      rw [scanFrom, List.reverse_singleton, List.mem_singleton] at h
      rw [h, List.take_nil, byte_count_nil]
      exact ⟨Nat.le_refl _, fun hend => absurd rfl hend⟩
  | cons c rest ih =>
      cases skip with
      | succ skip =>
          obtain ⟨hle, hpos⟩ := ih h
          rw [List.take_succ_cons, byte_count_cons]
          exact ⟨by omega, hpos⟩
      | zero =>
          rw [List.take_zero, byte_count_nil, Nat.add_zero]
          cases hlayout : isLayout c with
          | true =>
              rw [scan_from_layout hlayout] at h
              obtain ⟨hle, hpos⟩ := ih h
              exact ⟨by omega, hpos⟩
          | false =>
              rw [scan_from_cons hlayout, List.mem_cons] at h
              rcases h with rfl | h
              · exact ⟨Nat.le_refl _, fun _ => Nat.add_pos_left c.utf8Size_pos _⟩
              · obtain ⟨hle, hpos⟩ := ih h
                exact ⟨by omega, hpos⟩

/-- The last token of a text is its end, behind the last character. -/
theorem last_of_scan_from (position skip : Nat) (text : List Char) :
    (scanFrom [] position skip text).getLast? =
      some ⟨.endOfText, ⟨position + byteCount text, 0⟩⟩ := by
  induction text generalizing position skip with
  | nil => rfl
  | cons c rest ih =>
      rw [byte_count_cons, ← Nat.add_assoc]
      cases skip with
      | succ skip => exact ih _ skip
      | zero =>
          cases hlayout : isLayout c with
          | true =>
              rw [scan_from_layout hlayout]
              exact ih _ 0
          | false =>
              rw [scan_from_cons hlayout, List.getLast?_cons, ih]
              rfl

/-- Each token of a text ends before the next one begins. -/
theorem scan_from_sorted (position skip : Nat) (text : List Char) :
    (scanFrom [] position skip text).Pairwise fun token next =>
      token.span.stop ≤ next.span.start := by
  induction text generalizing position skip with
  | nil => exact List.pairwise_singleton _ _
  | cons c rest ih =>
      cases skip with
      | succ skip => exact ih _ skip
      | zero =>
          cases hlayout : isLayout c with
          | true =>
              rw [scan_from_layout hlayout]
              exact ih _ 0
          | false =>
              rw [scan_from_cons hlayout, List.pairwise_cons]
              refine ⟨fun next hnext => ?_, ih _ _⟩
              have hle := (span_of_scan_from hnext).1
              rw [Span.stop]
              dsimp only
              omega

/-- The last token of a whole text is its end. -/
theorem last_of_scan (text : List Char) :
    (scan text).getLast? = some ⟨.endOfText, ⟨byteCount text, 0⟩⟩ := by
  have hlast := last_of_scan_from 0 0 text
  rwa [Nat.zero_add] at hlast

/-- Each token of a whole text ends before the next one begins. -/
theorem scan_sorted (text : List Char) :
    (scan text).Pairwise fun token next => token.span.stop ≤ next.span.start :=
  scan_from_sorted 0 0 text

end Token

/-- A lexeme that is written: neither a stray character, nor an open string, nor the end of the
text. -/
def Lexeme.IsProper (lexeme : Lexeme) : Prop :=
  (∀ c, lexeme ≠ .stray c) ∧ lexeme ≠ .unclosedString ∧ lexeme ≠ .endOfText

/-- What takes no more bytes than what begins the same text is part of it. -/
theorem append_of_byte_count_le {a b c d : List Char} (h : a ++ b = c ++ d)
    (hle : byteCount a ≤ byteCount c) : ∃ m, c = a ++ m ∧ b = m ++ d := by
  rcases List.append_eq_append_iff.mp h with ⟨m, rfl, rfl⟩ | ⟨m, rfl, rfl⟩
  · exact ⟨m, rfl, rfl⟩
  · cases m with
    | nil => exact ⟨[], by simp, rfl⟩
    | cons x m =>
        have hpos := x.utf8Size_pos
        simp at hle
        omega

/-- The first token of a text is written at its front, and the others are those of what is left. -/
theorem first_token {position : Nat} {c : Char} {text : List Char} {token : Token}
    {following : List Token} (hlayout : isLayout c = false)
    (h : Token.scanFrom [] position 0 (c :: text) = token :: following)
    (hproper : token.lexeme.IsProper) (hstray : NoStray following) :
    ∃ source back, text = source ++ back ∧ Written token.lexeme (c :: source) ∧
      Ends token.lexeme back ∧ token.span = ⟨position, byteCount (c :: source)⟩ ∧
      Token.scanFrom [] (position + byteCount (c :: source)) 0 back = following := by
  rw [Token.scan_from_cons hlayout] at h
  obtain ⟨rfl, hscan⟩ := List.cons.inj h
  have hlexemes := Token.lexemes_scan_from (position + c.utf8Size) (Lexeme.atFront c text).2 text
  rw [hscan] at hlexemes
  obtain ⟨source, back, rfl, htaken, hwritten, hends⟩ :=
    Lexeme.written_of_at_front hproper.1 hproper.2.1 fun d hmem => by
      rw [← hlexemes] at hmem
      obtain ⟨token, htoken, hlexeme⟩ := List.mem_map.mp hmem
      exact hstray token htoken d hlexeme
  rw [htaken, Token.scan_from_skip] at hscan
  refine ⟨source, back, rfl, hwritten, hends, ?_, ?_⟩
  · rw [htaken, List.take_left, byte_count_cons]
  · rw [byte_count_cons, ← Nat.add_assoc]
    exact hscan

/-- Where no token stands on both sides of a place, the text in front of it is cut into the tokens
there. -/
theorem cut_of_scan {position : Nat} {before after : List Char} {tokens rest : List Token}
    (h : Token.scanFrom [] position 0 (before ++ after) = tokens ++ rest)
    (hproper : ∀ token ∈ tokens, token.lexeme.IsProper)
    (hstray : NoStray rest)
    (hbefore : ∀ token ∈ tokens, token.span.stop ≤ position + byteCount before)
    (hafter : ∀ token ∈ rest, position + byteCount before ≤ token.span.start) :
    Cut before (tokens.map (·.lexeme)) after ∧
      Token.scanFrom [] (position + byteCount before) 0 after = rest := by
  -- A lexeme takes any number of characters, so the induction is on the length of the text.
  generalize hlength : before.length = length
  induction length using Nat.strongRecOn generalizing position before tokens with
  | _ length ih =>
      cases before with
      | nil =>
          cases tokens with
          | nil => exact ⟨.nil after, h⟩
          | cons token tokens =>
              -- A token in front of nothing would be empty.
              have hmem : token ∈ Token.scanFrom [] position 0 ([] ++ after) := by
                rw [h]
                exact List.mem_cons_self
              obtain ⟨hle, hpos⟩ := Token.span_of_scan_from hmem
              have hstop := hbefore token List.mem_cons_self
              have hlength := hpos (hproper token List.mem_cons_self).2.2
              rw [byte_count_nil, Span.stop] at hstop
              omega
      | cons c before =>
          simp only [List.length_cons] at hlength
          rw [List.cons_append] at h
          cases hlayout : isLayout c with
          | true =>
              rw [Token.scan_from_layout hlayout] at h
              rw [byte_count_cons, ← Nat.add_assoc] at hbefore hafter ⊢
              obtain ⟨hcut, hscan⟩ := ih before.length (by omega) h hproper hbefore hafter rfl
              exact ⟨.layout hlayout hcut, hscan⟩
          | false =>
              cases tokens with
              | nil =>
                  rw [List.nil_append, Token.scan_from_cons hlayout] at h
                  have hle := hafter _ (by rw [← h]; exact List.mem_cons_self)
                  have hpos := c.utf8Size_pos
                  rw [byte_count_cons] at hle
                  dsimp only at hle
                  omega
              | cons token tokens =>
                  obtain ⟨hfirst, hmore⟩ := List.forall_mem_cons.mp hproper
                  obtain ⟨hstop, hbefore⟩ := List.forall_mem_cons.mp hbefore
                  obtain ⟨source, back, hsplit, hwritten, hends, hspan, hscan⟩ :=
                    first_token hlayout h hfirst
                      ((no_stray_append _ _).mpr ⟨fun t ht => (hmore t ht).1, hstray⟩)
                  rw [hspan, Span.stop, byte_count_cons, byte_count_cons] at hstop
                  dsimp only at hstop
                  obtain ⟨middle, rfl, rfl⟩ := append_of_byte_count_le hsplit.symm (by omega)
                  have hplace : position + byteCount (c :: (source ++ middle)) =
                      position + byteCount (c :: source) + byteCount middle := by
                    rw [← List.cons_append, byte_count_append, Nat.add_assoc]
                  rw [hplace] at hbefore hafter ⊢
                  rw [List.length_append] at hlength
                  obtain ⟨hcut, hrest⟩ := ih middle.length (by omega) hscan hmore hbefore hafter rfl
                  exact ⟨.lexeme hwritten hends hcut, hrest⟩

/-- A whole text is cut into its tokens. -/
theorem cut_to_end {position : Nat} {text : List Char} {tokens : List Token} {stop : Span}
    (h : Token.scanFrom [] position 0 text = tokens ++ [⟨.endOfText, stop⟩])
    (hproper : ∀ token ∈ tokens, token.lexeme.IsProper) :
    Cut text (tokens.map (·.lexeme)) [] := by
  have hstop : stop = ⟨position + byteCount text, 0⟩ := by
    have hlast := Token.last_of_scan_from position 0 text
    rw [h, List.getLast?_concat] at hlast
    exact congrArg Token.span (Option.some.inj hlast)
  rw [← List.append_nil text] at h
  refine (cut_of_scan h hproper (by simp) (fun token hmem => ?_) fun token hmem => ?_).1
  · have hsorted := Token.scan_from_sorted position 0 (text ++ [])
    rw [h, List.pairwise_append] at hsorted
    have hle := hsorted.2.2 token hmem _ (List.mem_singleton_self _)
    rwa [hstop] at hle
  · exact Nat.le_of_eq (by rw [List.mem_singleton.mp hmem, hstop])

/-- A text has the same tokens in front of whatever begins with a break. -/
theorem scan_in_front {text behind : List Char} {tokens : List Token} {stop : Span}
    (h : Token.scan text = tokens ++ [⟨.endOfText, stop⟩])
    (hproper : ∀ token ∈ tokens, token.lexeme.IsProper) (hbreaks : Breaks behind) :
    Token.scan (text ++ behind) = tokens ++ Token.scanFrom [] (byteCount text) 0 behind := by
  obtain ⟨others, -, hscan⟩ := Token.scan_from_cut_followed (cut_to_end h hproper) 0
  -- In front of nothing they are the tokens of the whole text.
  have halone := hscan [] fun _ _ hends => hends
  rw [List.append_nil, ← Token.scan, h] at halone
  obtain ⟨rfl, -⟩ := List.append_inj' halone rfl
  rw [← Nat.zero_add (byteCount text)]
  exact hscan behind fun lexeme _ _ => hbreaks.ends lexeme

end MessageSelector
