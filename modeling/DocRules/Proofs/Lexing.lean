import DocRules.Markup.Tokenizer.Lexeme

/-! # Lexemes one at a time

What the first lexeme of a text is, and what is left to be read after it. Every lexeme takes at least
one character, so a text has no more lexemes than characters. -/

namespace DocRules.Markup

/-- Reading on, without the proof that the rest is shorter. -/
theorem lexemesFrom_eq (trim : Bool) (offset : Nat) (text : List Char) :
    lexemesFrom trim offset text =
      let blanks := if trim then text.takeWhile Text.isBlank else []
      let start := offset + Text.byteLength blanks
      match text.drop blanks.length with
      | [] => .eof start
      | c :: body =>
        match scan c body with
        | .error stop => .fault stop.fault (start + stop.offset)
        | .ok s => .next start (start + s.width) s.lexeme
            (lexemesFrom trim (start + s.width) s.rest) := by
  rw [lexemesFrom]
  simp only
  split
  · rename_i h
    rw [h]
  · rename_i c body h
    rw [h]
    simp only
    split
    · rename_i stop hs
      rw [hs]
    · rename_i s hs
      rw [hs]

theorem lexemesFrom_nil (trim : Bool) (offset : Nat) :
    lexemesFrom trim offset [] = .eof offset := by
  rw [lexemesFrom_eq]
  cases trim <;> rfl

/-- A character that is not passed over begins the first lexeme. -/
theorem lexemesFrom_scan (trim : Bool) (offset : Nat) {c : Char} (body : List Char)
    (hc : (trim && Text.isBlank c) = false) :
    lexemesFrom trim offset (c :: body) =
      match scan c body with
      | .error stop => .fault stop.fault (offset + stop.offset)
      | .ok s => .next offset (offset + s.width) s.lexeme
          (lexemesFrom trim (offset + s.width) s.rest) := by
  have hb : (if trim then (c :: body).takeWhile Text.isBlank else []) = [] := by
    cases trim with
    | false => rfl
    | true =>
      rw [Bool.true_and] at hc
      rw [if_pos rfl, List.takeWhile_cons, hc]
      rfl
  rw [lexemesFrom_eq, hb]
  rfl

theorem lexemesFrom_cons (trim : Bool) (offset : Nat) {c : Char} {body : List Char}
    (hc : (trim && Text.isBlank c) = false) {s : Scan} (hs : scan c body = .ok s) :
    lexemesFrom trim offset (c :: body) =
      .next offset (offset + s.width) s.lexeme (lexemesFrom trim (offset + s.width) s.rest) := by
  rw [lexemesFrom_scan trim offset body hc, hs]

/-- With `trim` a blank before a lexeme is passed over. -/
theorem lexemesFrom_blank (offset : Nat) {c : Char} (hc : Text.isBlank c = true)
    (text : List Char) :
    lexemesFrom true offset (c :: text) = lexemesFrom true (offset + c.utf8Size) text := by
  rw [lexemesFrom_eq, lexemesFrom_eq]
  simp only [if_true, List.takeWhile_cons, hc, List.length_cons, List.drop_succ_cons,
    Text.byteLength_cons, Nat.add_assoc]

/-- Whether a character is neither the beginning of markup nor of a reference. -/
def isPlain (c : Char) : Bool := c != '<' && c != '&'

theorem isPlain_of_ne {c : Char} (h : c ≠ '<' ∧ c ≠ '&') : isPlain c = true := by
  simp [isPlain, h]

/-- A plain character begins a text, which goes on as far as the characters are plain. -/
theorem scan_plain {c : Char} (h : isPlain c = true) (text : List Char) :
    scan c text =
      .ok ⟨.silent, c.utf8Size + Text.byteLength (text.takeWhile isPlain),
        text.dropWhile isPlain⟩ := by
  rw [isPlain, Bool.and_eq_true, bne_iff_ne, bne_iff_ne] at h
  rw [scan, if_neg (mt beq_iff_eq.1 h.1), if_neg (mt beq_iff_eq.1 h.2)]
  rfl

/-- The number of lexemes before the end or the first malformed one. -/
def Lexemes.count : Lexemes → Nat
  | .eof _ | .fault _ _ => 0
  | .next _ _ _ rest => rest.count + 1

theorem count_lexemesFrom_le (trim : Bool) (offset : Nat) (text : List Char) :
    (lexemesFrom trim offset text).count ≤ text.length := by
  fun_induction lexemesFrom trim offset text with
  | case1 => exact Nat.zero_le _
  | case2 => exact Nat.zero_le _
  | case3 offset text blanks start c body h s hs hlt ih =>
    rw [Lexemes.count]
    omega

end DocRules.Markup
