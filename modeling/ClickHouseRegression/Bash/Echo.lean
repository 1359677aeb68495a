import ClickHouseRegression.Text

/-! The builtin `echo`: its options and, under `-e`, its backslash escapes. -/
namespace ClickHouseRegression.Bash

/-- What is written: a character, or a byte or code point that is no character by itself. -/
inductive Output
  | char (c : Char)
  | byte (n : ℕ)
  | codePoint (n : ℕ)
  deriving DecidableEq

def Output.ofByte (n : ℕ) : Output := if n < 128 then .char (Char.ofNat n) else .byte n

def Output.ofCodePoint (n : ℕ) : Output := if n.isValidChar then .char (Char.ofNat n) else .codePoint n

/-- What a backslash before a text means: itself, the end of all output, or an escape that takes
some characters of the text. -/
inductive Escape
  | literal
  | stop
  | output (x : Output) (taken : ℕ)
  deriving DecidableEq

def isOctal (c : Char) : Bool := '0' ≤ c && c ≤ '7'

def isHex (c : Char) : Bool := c.isDigit || ('a' ≤ c && c ≤ 'f') || ('A' ≤ c && c ≤ 'F')

def digitValue (c : Char) : ℕ := if c.isDigit then c.toNat-48 else c.toLower.toNat-87

def numeral (base : ℕ) (digits : Text) : ℕ := digits.foldl (fun n c => n*base + digitValue c) 0

/-- A number of at most `most` hexadecimal digits; without any digit the text is left as it is. -/
def hexEscape (make : ℕ → Output) (digits : Text) : Escape :=
  if digits = [] then .literal else .output (make (numeral 16 digits)) (1+digits.length)

/-- The escapes of one letter. -/
def letterEscapes : List (Char × Char) :=
  [('a','\x07'),('b','\x08'),('e','\x1b'),('E','\x1b'),('f','\x0c'),('n','\n'),('r','\r'),('t','\t'),
    ('v','\x0b'),('\\','\\')]

/-- The first characters of a text that are digits, at most `most` of them. -/
def digitsOf (digit : Char → Bool) (most : ℕ) (t : Text) : Text := (t.take most).takeWhile digit

/-- The escape at the head of a text. -/
def escape : Text → Escape
  | [] => .literal
  | c :: rest =>
    match letterEscapes.lookup c with
    | some d => .output (.char d) 1
    | none =>
      if c = 'c' then .stop
      else if c = '0' then
        .output (.ofByte (numeral 8 (digitsOf isOctal 3 rest) % 256)) (1+(digitsOf isOctal 3 rest).length)
      else if c = 'x' then hexEscape .ofByte (digitsOf isHex 2 rest)
      else if c = 'u' then hexEscape .ofCodePoint (digitsOf isHex 4 rest)
      else if c = 'U' then hexEscape .ofCodePoint (digitsOf isHex 8 rest)
      else .literal

/-- The text with its escapes carried out, after `k` characters, and whether it is written to its
end. -/
def unescape : ℕ → Text → List Output × Bool
  | _,[] => ([],true)
  | k+1,_ :: rest => unescape k rest
  | 0,c :: rest =>
    if c = '\\' then
      match escape rest with
      | .literal => ((unescape 0 rest).map (.char c :: ·) id)
      | .stop => ([],false)
      | .output x k => ((unescape k rest).map (x :: ·) id)
    else ((unescape 0 rest).map (.char c :: ·) id)

/-- A word that `echo` takes for options. -/
def echoOption : Text → Bool
  | '-' :: flags => !flags.isEmpty && flags.all fun c => c = 'n' || c = 'e' || c = 'E'
  | _ => false

/-- The output of `echo`; the last of `e` and `E` decides on escapes. -/
def echo (args : List Text) : List Output :=
  let flags := (args.takeWhile echoOption).flatten
  let text := [' '].intercalate (args.dropWhile echoOption)
  let body := if (flags.filter fun c => c = 'e' || c = 'E').getLast? = some 'e' then unescape 0 text
    else (text.map .char,true)
  body.1 ++ if body.2 && !flags.contains 'n' then [.char '\n'] else []

/-- Text without escapes. -/
def echoLiteral : Text → Bool
  | [] => true
  | c :: rest => (c ≠ '\\' || escape rest = .literal) && echoLiteral rest

theorem unescape_of_literal {t : Text} (h : echoLiteral t = true) : unescape 0 t = (t.map .char,true) := by
  induction t with
  | nil => rfl
  | cons c rest ih =>
    rw [echoLiteral,Bool.and_eq_true,Bool.or_eq_true,decide_eq_true_eq,decide_eq_true_eq] at h
    rw [unescape,ih h.2]
    split_ifs with hc
    · rw [h.1.resolve_left (absurd hc)]
      rfl
    · rfl

theorem digitsOf_length (digit : Char → Bool) (most : ℕ) (t : Text) :
    (digitsOf digit most t).length ≤ t.length :=
  (List.takeWhile_prefix _).length_le.trans (List.length_take_le' _ _)

theorem hexEscape_taken {make : ℕ → Output} {digits : Text} {x : Output} {k : ℕ}
    (h : hexEscape make digits = .output x k) : k = 1+digits.length := by
  unfold hexEscape at h
  split_ifs at h with hd
  cases h
  rfl

theorem escape_taken {t : Text} {x : Output} {k : ℕ} (h : escape t = .output x k) :
    1 ≤ k ∧ k ≤ t.length := by
  cases t with
  | nil => cases h
  | cons c rest =>
    have hlen := fun digit most => digitsOf_length digit most rest
    rw [escape] at h
    rw [List.length_cons]
    split at h
    · cases h
      omega
    · split_ifs at h
      · cases h
        have := hlen isOctal 3
        omega
      · have := hexEscape_taken h
        have := hlen isHex 2
        omega
      · have := hexEscape_taken h
        have := hlen isHex 4
        omega
      · have := hexEscape_taken h
        have := hlen isHex 8
        omega

/-- Escapes only make the output shorter, and text that keeps its length has none. -/
theorem unescape_shrinks (k : ℕ) (t : Text) :
    (unescape k t).1.length ≤ t.length-k ∧
      ((unescape 0 t).1.length = t.length → echoLiteral t = true) := by
  induction t generalizing k with
  | nil => exact ⟨Nat.zero_le _,fun _ => rfl⟩
  | cons c rest ih =>
    have hzero : (unescape 0 (c :: rest)).1.length ≤ rest.length+1 ∧
        ((unescape 0 (c :: rest)).1.length = rest.length+1 → echoLiteral (c :: rest) = true) := by
      have ih0 := ih 0
      rw [unescape,echoLiteral]
      split_ifs with hc
      · split
        case h_1 hl =>
          simp only [Prod.map_fst,List.length_cons,hl,decide_true,Bool.or_true,Bool.true_and]
          exact ⟨by omega,fun h => ih0.2 (by omega)⟩
        case h_2 hl =>
          simp only [List.length_nil]
          exact ⟨by omega,fun h => by omega⟩
        case h_3 x k hl =>
          have htaken := escape_taken hl
          have ihk := (ih k).1
          simp only [Prod.map_fst,List.length_cons]
          exact ⟨by omega,fun h => by omega⟩
      · simp only [Prod.map_fst,List.length_cons,ne_eq,hc,not_false_eq_true,decide_true,Bool.true_or,
          Bool.true_and]
        exact ⟨by omega,fun h => ih0.2 (by omega)⟩
    refine ⟨?_,hzero.2⟩
    cases k with
    | zero => exact hzero.1
    | succ k =>
      rw [unescape,List.length_cons,Nat.add_sub_add_right]
      exact (ih k).1

/-- The number of characters of some words with a blank or newline after each. -/
def argsWeight (args : List Text) : ℕ := (args.map fun a => a.length+1).sum

theorem intercalate_length {args : List Text} (h : args ≠ []) :
    ([' '].intercalate args).length+1 = argsWeight args := by
  unfold argsWeight
  induction args with
  | nil => exact absurd rfl h
  | cons a args ih =>
    cases args with
    | nil => simp [List.intercalate_singleton]
    | cons b args =>
      have hrest := ih (by simp)
      rw [List.intercalate_cons_cons,List.map_cons,List.sum_cons,← hrest]
      simp only [List.length_append,List.length_singleton]
      omega

theorem echoOption_length {a : Text} (h : echoOption a = true) : 2 ≤ a.length := by
  unfold echoOption at h
  split at h
  · rename_i flags
    cases flags with
    | nil => cases h
    | cons c flags => simp
  · cases h

theorem newline_length_le (b : Bool) : (if b then [Output.char '\n'] else []).length ≤ 1 := by
  cases b <;> decide

theorem echo_length_le (args : List Text) :
    (echo args).length ≤ ([' '].intercalate (args.dropWhile echoOption)).length+1 := by
  have hshrink := (unescape_shrinks 0 ([' '].intercalate (args.dropWhile echoOption))).1
  rw [Nat.sub_zero] at hshrink
  simp only [echo,List.length_append]
  refine Nat.add_le_add ?_ (newline_length_le _)
  split_ifs
  · exact hshrink
  · rw [List.length_map]

theorem argsWeight_dropWhile_le (args : List Text) (p : Text → Bool) :
    argsWeight (args.dropWhile p) ≤ argsWeight args := by
  unfold argsWeight
  exact ((List.dropWhile_suffix p).sublist.map _).sum_le_sum fun _ _ => Nat.zero_le _

/-- Text without escapes that is no option is written as it is, with a newline. -/
theorem echo_of_literal {t : Text} (ho : echoOption t = false) (h : echoLiteral t = true) :
    echo ["-e".toList,t] = (t ++ ['\n']).map .char := by
  have he : echoOption "-e".toList = true := by rfl
  have hflags : ("-e".toList.filter fun c => c = 'e' || c = 'E').getLast? = some 'e' := by rfl
  have hn : "-e".toList.contains 'n' = false := by rfl
  rw [echo,List.takeWhile_cons_of_pos he,List.takeWhile_cons_of_neg (by simp [ho]),
    List.dropWhile_cons_of_pos he,List.dropWhile_cons_of_neg (by simp [ho]),List.flatten_singleton,
    List.intercalate_singleton]
  simp only [hflags,if_true,unescape_of_literal h,hn]
  simp

/-- Output as long as the words was written without options and escapes among them. -/
theorem literal_of_echo_length {a : Text} {args : List Text}
    (h : argsWeight (a :: args) ≤ (echo ("-e".toList :: a :: args)).length) :
    echoOption a = false ∧ echoLiteral ([' '].intercalate (a :: args)) = true := by
  have he : echoOption "-e".toList = true := by rfl
  have hle := echo_length_le ("-e".toList :: a :: args)
  rw [List.dropWhile_cons_of_pos he] at hle
  have hweight : argsWeight (a :: args) = a.length+1+argsWeight args := by simp [argsWeight]
  by_cases ho : echoOption a = true
  · -- an option is longer than the newline that may be left of it
    exfalso
    have htwo := echoOption_length ho
    have hdrop := argsWeight_dropWhile_le args echoOption
    rw [List.dropWhile_cons_of_pos ho] at hle
    by_cases hnil : args.dropWhile echoOption = []
    · rw [hnil] at hle
      simp only [List.intercalate_nil,List.length_nil] at hle
      omega
    · have hjoin := intercalate_length hnil
      omega
  · rw [Bool.not_eq_true] at ho
    refine ⟨ho,?_⟩
    have hjoin := intercalate_length (List.cons_ne_nil a args)
    have hshrink := unescape_shrinks 0 ([' '].intercalate (a :: args))
    refine hshrink.2 ?_
    have hflags : ("-e".toList.filter fun c => c = 'e' || c = 'E').getLast? = some 'e' := by
      rfl
    rw [echo,List.takeWhile_cons_of_pos he,List.takeWhile_cons_of_neg (by simp [ho]),
      List.dropWhile_cons_of_pos he,List.dropWhile_cons_of_neg (by simp [ho]),List.flatten_singleton]
      at h
    simp only [hflags,if_true,List.length_append] at h
    have := h.trans (Nat.add_le_add_left (newline_length_le _) _)
    have := hshrink.1
    omega

end ClickHouseRegression.Bash
