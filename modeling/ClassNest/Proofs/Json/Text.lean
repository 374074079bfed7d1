import ClassNest.Json.Printer
import ClassNest.Json.Reader

/-!
# Reading what was written

The machine reads back every value that was written with one item a line (`parse?_pretty`), as long as the value
has no number but those of digits alone.

A value is told apart from what follows it by its own last character, but for a number, which joins what is open
only when the next character is there. `Machine.Settles` covers both: the machine that has taken the last
character, and the machine that it is as good as once a character follows that no number goes on with.
-/
namespace ClassNest.Json

/-- A value whose numbers are all of digits alone. -/
inductive Plain : Json → Prop
  | null : Plain .null
  | bool (b : Bool) : Plain (.bool b)
  | nat (n : Nat) : Plain (.nat n)
  | text (content : Option String) : Plain (.text content)
  | array {items : List Json} (h : ∀ v ∈ items, Plain v) : Plain (.array items)
  | object {members : List (Option String × Json)} (h : ∀ m ∈ members, Plain m.2) : Plain (.object members)

/-! ## What is written -/

theorem prettyItems_eq_map (depth : Nat) (items : List Json) :
    prettyItems depth items = items.map (prettyAt depth) := by
  induction items with
  | nil => rfl
  | cons v vs ih => rw [prettyItems, ih, List.map_cons]

theorem prettyMembers_eq_map (depth : Nat) (members : List (Option String × Json)) :
    prettyMembers depth members = members.map fun m => quotedContent m.1 ++ ": " ++ prettyAt depth m.2 := by
  induction members with
  | nil => rfl
  | cons m ms ih => rw [prettyMembers, ih, List.map_cons]

theorem isBlank_of_mem_lineBreak {c : Char} {depth : Nat} (hc : c ∈ (lineBreak depth).toList) : isBlank c := by
  simp only [lineBreak, String.toList_append, String.toList_ofList, List.mem_append, List.mem_replicate] at hc
  obtain hc | ⟨-, rfl⟩ := hc
  · obtain rfl : c = '\n' := by simpa using hc
    rfl
  · rfl

theorem hexDigit?_hexDigit : ∀ n < 16, hexDigit? (hexDigit n) = some n := by decide

theorem natOfDigits_toDigits (n : Nat) : natOfDigits (Nat.toDigits 10 n) = n := by
  have h := Nat.ofDigitChars_ten_toDigits (n := n)
  rw [Nat.ofDigitChars_eq_foldl] at h
  simpa only [natOfDigits, Nat.mul_comm 10] using h

theorem ofNumeral_toDigits (n : Nat) : ofNumeral (Nat.toDigits 10 n).reverse = .nat n := by
  have hall : (Nat.toDigits 10 n).all Char.isDigit := by
    rw [List.all_eq_true]
    exact fun c => Nat.isDigit_of_mem_toDigits (by omega) (by omega)
  simp [ofNumeral, hall, natOfDigits_toDigits]

/-- Only zero is written with a zero in front. -/
theorem eq_zero_of_head?_toDigits {n : Nat} (h : (Nat.toDigits 10 n).head? = some '0') : n = 0 := by
  induction n using Nat.strongRecOn with
  | ind n ih =>
    by_cases hn : n < 10
    · rw [Nat.toDigits_of_lt_base hn] at h
      exact Nat.digitChar_eq_zero.mp (by simpa using h)
    · obtain ⟨c, cs, hcs⟩ := List.exists_cons_of_ne_nil (Nat.toDigits_ne_nil (n := n / 10) (b := 10))
      rw [Nat.toDigits_of_base_le (by omega) (by omega), hcs] at h
      have := ih (n / 10) (by omega) (by rw [hcs]; exact h)
      omega

namespace Machine

variable {m next : Machine} {stack : List Frame} {c : Char} {cs ds : List Char} {v : Json}

/-! ## Runs -/

@[simp] theorem run_nil : run [] = some := rfl

@[simp] theorem run_cons : run (c :: cs) m = (m.step c).bind (run cs) := by
  rw [run]
  cases m.step c <;> rfl

@[simp] theorem run_append : run (cs ++ ds) m = (run cs m).bind (run ds) := by
  induction cs generalizing m with
  | nil => rfl
  | cons c cs ih =>
    rw [List.cons_append, run_cons, run_cons, Option.bind_assoc]
    exact congrArg _ (funext fun _ => ih)

/-- A machine that stands between two tokens: blanks change nothing. -/
def Idle (m : Machine) : Prop := ∀ c, isBlank c → m.step c = some m

theorem idle_value (closable : Bool) : Idle ⟨stack, .value closable⟩ := fun c hc => by simp [step, hc]

theorem idle_key (closable : Bool) : Idle ⟨stack, .key closable⟩ := fun c hc => by simp [step, hc]

theorem idle_after : Idle ⟨stack, .after⟩ := fun c hc => by simp [step, between, hc]

theorem Idle.run_blanks (hm : m.Idle) (h : ∀ c ∈ cs, isBlank c) : run cs m = some m := by
  induction cs with
  | nil => rfl
  | cons c cs ih =>
    rw [run_cons, hm c (h c List.mem_cons_self)]
    exact ih fun d hd => h d (List.mem_cons_of_mem c hd)

theorem Idle.run_lineBreak (hm : m.Idle) (depth : Nat) : run (lineBreak depth).toList m = some m :=
  hm.run_blanks fun _ => isBlank_of_mem_lineBreak

/-! ## The end of a value -/

/-- The first machine has taken the last character of a value, and is as good as the second when no number goes on
with the character after it. -/
inductive Settles : Machine → Machine → Prop
  | settled (m : Machine) : Settles m m
  | numeral {stack : List Frame} {digits : Digits} {chars : List Char} {next : Machine}
      (hdigits : digits = .zero ∨ digits = .int) (hnext : accept stack (ofNumeral chars) = some next) :
      Settles ⟨stack, .number digits chars⟩ next

theorem next?_eq_none (hc : Digits.int.next? c = none) {digits : Digits} (h : digits = .zero ∨ digits = .int) :
    digits.next? c = none := by
  obtain rfl | rfl := h
  · simp only [Digits.next?] at hc ⊢
    split at hc
    · cases hc
    · exact hc
  · exact hc

/-- After a value the machine waits for a comma, for a bracket, or for the end. -/
theorem step_of_accept (h : accept stack v = some next) : next.step c = next.between c := by
  unfold accept at h
  split at h <;> cases h <;> rfl

theorem Settles.step (h : Settles m next) (hc : Digits.int.next? c = none) : m.step c = next.step c := by
  cases h with
  | settled => rfl
  | @numeral _ digits _ _ hdigits hnext =>
    have hcomplete : digits.complete = true := by
      obtain rfl | rfl := hdigits <;> rfl
    simp only [Machine.step, next?_eq_none hc hdigits, hcomplete, if_true, hnext, Option.bind_some]
    exact (step_of_accept hnext).symm

theorem Settles.run (h : Settles m next) (hc : Digits.int.next? c = none) : run (c :: cs) m = run (c :: cs) next := by
  rw [run_cons, run_cons, h.step hc]

theorem Settles.result (h : Settles m ⟨[], .done v⟩) : m.result = some v := by
  cases h with
  | settled => rfl
  | @numeral stack digits chars _ hdigits hnext =>
    cases stack with
    | nil =>
      obtain rfl : ofNumeral chars = v := by simpa [accept] using hnext
      obtain rfl | rfl := hdigits <;> rfl
    | cons frame rest => cases frame <;> simp [accept] at hnext

/-! ## Strings -/

/-- What stands for a character between quotes is read as that character. -/
theorem run_escaped (c : Char) (chars : List Char) :
    run (escaped c) ⟨stack, .string { chars := chars }⟩ = some ⟨stack, .string { chars := c :: chars }⟩ := by
  unfold escaped
  by_cases hquote : c = '"'
  · subst hquote; rfl
  by_cases hslash : c = '\\'
  · subst hslash; rfl
  by_cases hshort : c = '\x08' ∨ c = '\x0c' ∨ c = '\n' ∨ c = '\r' ∨ c = '\t'
  · obtain rfl | rfl | rfl | rfl | rfl := hshort <;> rfl
  simp only [not_or] at hshort
  by_cases hcontrol : c.toNat < 0x20
  · -- the two digits of a control character give its number back
    have hhigh := hexDigit?_hexDigit (c.toNat / 16) (by omega)
    have hlow := hexDigit?_hexDigit (c.toNat % 16) (by omega)
    have hnumber : c.toNat / 16 * 16 + c.toNat % 16 = c.toNat := by omega
    have hunit (l : Literal) : l.addUnit c.toNat = l.add c := by
      rw [Literal.addUnit, if_neg (by omega), if_neg (by omega), Char.ofNat_toNat]
    have hzero : hexDigit? '0' = some 0 := rfl
    simp [hquote, hslash, hshort, hcontrol, step, Literal.closable, Literal.step, hzero, hhigh, hlow, hnumber, hunit,
      Literal.add]
  · simp [hquote, hslash, hshort, hcontrol, step, Literal.closable, Literal.step, Literal.add]

theorem run_flatMap_escaped (cs chars : List Char) :
    run (cs.flatMap escaped) ⟨stack, .string { chars := chars }⟩ =
      some ⟨stack, .string { chars := cs.reverse ++ chars }⟩ := by
  induction cs generalizing chars with
  | nil => rfl
  | cons c cs ih => simp [run_escaped, ih]

/-- The rest of a string after its first quote. -/
theorem run_string (stack : List Frame) (content : Option String) :
    ∃ body, (quotedContent content).toList = '"' :: body ∧
      run body ⟨stack, .string {}⟩ = closeString stack content := by
  cases content with
  | none =>
    refine ⟨"\\ud800\"".toList, rfl, ?_⟩
    simp [step, Literal.closable, Literal.step, hexDigit?, Literal.addUnit, Literal.content]
  | some s =>
    refine ⟨s.toList.flatMap escaped ++ ['"'], by simp [quotedContent, quoted], ?_⟩
    rw [run_append, run_flatMap_escaped]
    simp [step, Literal.closable, Literal.content]

theorem run_quotedContent_value (content : Option String) (closable : Bool) :
    run (quotedContent content).toList ⟨stack, .value closable⟩ = closeString stack content := by
  obtain ⟨body, htext, hbody⟩ := run_string stack content
  rw [htext, run_cons, ← hbody]
  cases closable <;> rfl

theorem run_quotedContent_key (content : Option String) (closable : Bool) :
    run (quotedContent content).toList ⟨stack, .key closable⟩ = closeString stack content := by
  obtain ⟨body, htext, hbody⟩ := run_string stack content
  rw [htext, run_cons, ← hbody]
  cases closable <;> rfl

/-! ## Numbers -/

theorem step_digit (hc : c.isDigit) (hzero : c ≠ '0') (closable : Bool) :
    step ⟨stack, .value closable⟩ c = some ⟨stack, .number .int [c]⟩ := by
  have hne : ∀ d, d.isDigit = false → c ≠ d := by
    rintro d hd rfl
    rw [hc] at hd
    cases hd
  simp [step, isBlank, open?, hzero, hc, hne]

theorem run_digits {chars : List Char} (h : ∀ c ∈ cs, c.isDigit) :
    run cs ⟨stack, .number .int chars⟩ = some ⟨stack, .number .int (cs.reverse ++ chars)⟩ := by
  induction cs generalizing chars with
  | nil => rfl
  | cons c cs ih =>
    have hc : Digits.int.next? c = some .int := by simp [Digits.next?, h c List.mem_cons_self]
    have hstep : step ⟨stack, .number .int chars⟩ c = some ⟨stack, .number .int (c :: chars)⟩ := by simp [step, hc]
    rw [run_cons, hstep]
    simpa using ih fun d hd => h d (List.mem_cons_of_mem c hd)

theorem run_nat (stack : List Frame) (n : Nat) (closable : Bool) :
    ∃ digits, (digits = .zero ∨ digits = .int) ∧
      run (Nat.toDigits 10 n) ⟨stack, .value closable⟩ = some ⟨stack, .number digits (Nat.toDigits 10 n).reverse⟩ := by
  cases hdigits : Nat.toDigits 10 n with
  | nil => exact absurd hdigits Nat.toDigits_ne_nil
  | cons c cs =>
    have hall : ∀ d ∈ c :: cs, d.isDigit := fun d hd =>
      Nat.isDigit_of_mem_toDigits (by omega) (by omega) (hdigits ▸ hd)
    -- a number goes on after its first digit, unless that is a zero
    by_cases hc : c = '0'
    · subst hc
      obtain rfl := eq_zero_of_head?_toDigits (n := n) (by rw [hdigits]; rfl)
      obtain rfl : cs = [] := by simpa [Nat.toDigits_of_lt_base] using hdigits.symm
      exact ⟨.zero, .inl rfl, by cases closable <;> rfl⟩
    · refine ⟨.int, .inr rfl, ?_⟩
      rw [run_cons, step_digit (hall c List.mem_cons_self) hc]
      simpa using run_digits fun d hd => hall d (List.mem_cons_of_mem c hd)

/-! ## Containers -/

/-- One of the two kinds of container: how it is written, and how the machine goes about it. -/
structure Container (β : Type) where
  opening : String
  closing : String
  frame : List β → Frame
  /-- the mode in which the next entry must start; with `true` the container may also end -/
  wait : Bool → Mode
  value : List β → Json
  run_opening : ∀ stack closable, run opening.toList ⟨stack, .value closable⟩ = some ⟨frame [] :: stack, wait true⟩
  run_closing_empty : ∀ stack, run closing.toList ⟨frame [] :: stack, wait true⟩ = accept stack (value [])
  run_closing : ∀ stack es, run closing.toList ⟨frame es :: stack, .after⟩ = accept stack (value es.reverse)
  step_comma : ∀ stack es, step ⟨frame es :: stack, .after⟩ ',' = some ⟨frame es :: stack, wait false⟩
  idle_wait : ∀ stack closable, Idle ⟨stack, wait closable⟩

def arrays : Container Json where
  opening := "["
  closing := "]"
  frame := .array
  wait := .value
  value := .array
  run_opening stack closable := by cases closable <;> rfl
  run_closing_empty stack := by simp [step, isBlank, close]
  run_closing stack es := by simp [step, between, isBlank, close]
  step_comma stack es := rfl
  idle_wait stack closable := idle_value closable

def objects : Container (Option String × Json) where
  opening := "\x7b"
  closing := "\x7d"
  frame := .object
  wait := .key
  value := .object
  run_opening stack closable := by cases closable <;> rfl
  run_closing_empty stack := by simp [step, isBlank, close]
  run_closing stack es := by simp [step, between, isBlank, close]
  step_comma stack es := rfl
  idle_wait stack closable := idle_key closable

namespace Container

variable {β : Type} (k : Container β) {text : β → String}

/-- The written entry `e` is read as one more entry of the container. -/
def Takes (text : β → String) (e : β) : Prop :=
  ∀ stack es closable, ∃ m, run (text e).toList ⟨k.frame es :: stack, k.wait closable⟩ = some m ∧
    Settles m ⟨k.frame (e :: es) :: stack, .after⟩

theorem run_separator {es : List β} (h : Settles m ⟨k.frame es :: stack, .after⟩) (depth : Nat) :
    run ("," ++ lineBreak depth).toList m = some ⟨k.frame es :: stack, k.wait false⟩ := by
  have htext : ("," ++ lineBreak depth).toList = ',' :: (lineBreak depth).toList := by simp
  rw [htext, h.run rfl, run_cons, k.step_comma]
  exact (k.idle_wait _ false).run_lineBreak depth

theorem run_end {es : List β} (h : Settles m ⟨k.frame es :: stack, .after⟩) (depth : Nat) :
    run (lineBreak depth ++ k.closing).toList m = accept stack (k.value es.reverse) := by
  have htext : (lineBreak depth ++ k.closing).toList =
      '\n' :: (List.replicate (2 * depth) ' ' ++ k.closing.toList) := by
    simp [lineBreak]
  have hline : run (lineBreak depth ++ k.closing).toList ⟨k.frame es :: stack, .after⟩ =
      accept stack (k.value es.reverse) := by
    rw [String.toList_append, run_append, idle_after.run_lineBreak depth]
    exact k.run_closing stack es
  -- the line break comes first, and with it a number at the end joins the container
  rw [htext] at hline ⊢
  rw [h.run rfl, hline]

/-- The entries of a container one after the other, each on a line of its own. -/
theorem run_intercalate (stack : List Frame) (depth : Nat) {e : β} {rest : List β}
    (h : ∀ d ∈ e :: rest, k.Takes text d) (es : List β) (closable : Bool) :
    ∃ m, run (("," ++ lineBreak depth).intercalate ((e :: rest).map text)).toList
        ⟨k.frame es :: stack, k.wait closable⟩ = some m ∧
      Settles m ⟨k.frame (rest.reverse ++ e :: es) :: stack, .after⟩ := by
  induction rest generalizing e es closable with
  | nil => simpa using h e List.mem_cons_self stack es closable
  | cons d rest ih =>
    obtain ⟨m, hrun, hm⟩ := h e List.mem_cons_self stack es closable
    obtain ⟨last, hlast, hsettles⟩ := ih (fun d' hd' => h d' (List.mem_cons_of_mem e hd')) (e :: es) false
    refine ⟨last, ?_, by simpa using hsettles⟩
    rw [List.map_cons, List.map_cons, String.intercalate_cons_cons, String.toList_append, String.toList_append,
      run_append, run_append, hrun, Option.bind_some, k.run_separator hm, Option.bind_some]
    exact hlast

/-- The whole container, from its opening to its closing bracket. -/
theorem run_bracketed (depth : Nat) {es : List β} (h : ∀ e ∈ es, k.Takes text e) (closable : Bool) :
    run (bracketed depth k.opening k.closing (es.map text)).toList ⟨stack, .value closable⟩ =
      accept stack (k.value es) := by
  cases es with
  | nil =>
    rw [List.map_nil, bracketed, String.toList_append, run_append, k.run_opening]
    exact k.run_closing_empty stack
  | cons e rest =>
    obtain ⟨m, hrun, hm⟩ := k.run_intercalate stack (depth + 1) h [] true
    have htext : (bracketed depth k.opening k.closing ((e :: rest).map text)).toList =
        k.opening.toList ++ ((lineBreak (depth + 1)).toList ++
          ((("," ++ lineBreak (depth + 1)).intercalate ((e :: rest).map text)).toList ++
            (lineBreak depth ++ k.closing).toList)) := by
      simp only [List.map_cons, bracketed, String.toList_append, List.append_assoc]
    rw [htext, run_append, k.run_opening, Option.bind_some, run_append,
      (k.idle_wait _ true).run_lineBreak, Option.bind_some, run_append, hrun, Option.bind_some, k.run_end hm]
    simp

end Container

/-! ## Values -/

theorem closeString_of_accept {content : Option String} (h : accept stack (.text content) = some next) :
    closeString stack content = some next := by
  unfold closeString
  split
  · cases h
  · exact h

/-- The value, written at any depth, is read wherever a value must start. -/
def Reads (v : Json) : Prop :=
  ∀ depth stack closable next, accept stack v = some next →
    ∃ m, run (prettyAt depth v).toList ⟨stack, .value closable⟩ = some m ∧ Settles m next

theorem Reads.item (h : Reads v) (depth : Nat) : arrays.Takes (prettyAt depth) v :=
  fun stack items closable => h depth (.array items :: stack) closable _ rfl

theorem Reads.member {key : Option String} (h : Reads v) (depth : Nat) :
    objects.Takes (fun m => quotedContent m.1 ++ ": " ++ prettyAt depth m.2) (key, v) := by
  intro stack members closable
  obtain ⟨m, hrun, hm⟩ := h depth (.field members key :: stack) false _ rfl
  have hkey : run (quotedContent key).toList ⟨objects.frame members :: stack, objects.wait closable⟩ =
      some ⟨.field members key :: stack, .colon⟩ := run_quotedContent_key key closable
  have hcolon : run ": ".toList ⟨.field members key :: stack, .colon⟩ =
      some ⟨.field members key :: stack, .value false⟩ := rfl
  refine ⟨m, ?_, hm⟩
  rw [String.toList_append, String.toList_append, run_append, run_append, hkey, Option.bind_some, hcolon,
    Option.bind_some, hrun]

theorem reads_of_plain (h : v.Plain) : Reads v := by
  induction h with
  | null =>
    intro depth stack closable next hnext
    refine ⟨next, ?_, .settled next⟩
    cases closable <;> simp [prettyAt, step, isBlank, open?, hnext]
  | bool b =>
    intro depth stack closable next hnext
    refine ⟨next, ?_, .settled next⟩
    cases b <;> cases closable <;> simp [prettyAt, step, isBlank, open?, hnext]
  | nat n =>
    intro depth stack closable next hnext
    obtain ⟨digits, hdigits, hrun⟩ := run_nat stack n closable
    rw [← ofNumeral_toDigits] at hnext
    exact ⟨_, by simpa [prettyAt, Nat.toList_repr] using hrun, .numeral hdigits hnext⟩
  | text content =>
    intro depth stack closable next hnext
    refine ⟨next, ?_, .settled next⟩
    rw [prettyAt, run_quotedContent_value, closeString_of_accept hnext]
  | array _ ih =>
    intro depth stack closable next hnext
    refine ⟨next, ?_, .settled next⟩
    rw [prettyAt, prettyItems_eq_map, ← hnext]
    exact arrays.run_bracketed depth (fun v hv => (ih v hv).item (depth + 1)) closable
  | object _ ih =>
    intro depth stack closable next hnext
    refine ⟨next, ?_, .settled next⟩
    rw [prettyAt, prettyMembers_eq_map, ← hnext]
    exact objects.run_bracketed depth (fun m hm => (ih m hm).member (depth + 1)) closable

end Machine

/-- What is written with one item a line is read back. -/
theorem parse?_pretty {v : Json} (h : v.Plain) : parse? v.pretty = some v := by
  obtain ⟨m, hrun, hm⟩ := Machine.reads_of_plain h 0 [] false ⟨[], .done v⟩ rfl
  rw [parse?, pretty, Machine.start, hrun, Option.bind_some, hm.result]

end ClassNest.Json
