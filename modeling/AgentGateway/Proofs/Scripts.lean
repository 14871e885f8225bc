import AgentGateway.Proofs.Phrases

namespace AgentGateway.Command

open Json (Literal)
open Text (Digits IsSpace IsTrimmed Signed Trims)

variable {c : Command} {cs : List Command} {l raw digits text : List Char}
variable {ls ls' : List (List Char)} {key name : String}

def call (name : String) (raw : List Char) : List Char := name.toList ++ '(' :: (raw ++ [')'])

inductive Writes : Command → List Char → Prop
  | millis {digits : List Char} {n : Nat} : Digits digits n → n ≤ maxAmount →
      Writes (.wait n) (call "wait" (digits ++ ['m', 's']))
  | seconds {digits : List Char} {n : Nat} : Digits digits n → n ≤ maxAmount →
      Writes (.wait (n * 1000)) (call "wait" (digits ++ ['s']))
  | respond {text s : List Char} (k : RespondKind) : Literal text s →
      Writes (.respond k (String.ofList s)) (call "respond" (k.name.toList ++ ',' :: ' ' :: text))
  | ask {text s : List Char} : Literal text s → Writes (.ask (String.ofList s)) (call "ask" text)
  | stream {digits : List Char} {n : Nat} : Digits digits n → 1 ≤ n → n ≤ Nat.pow 2 32 - 1 →
      Writes (.stream n) (call "stream" digits)
  | code {text : List Char} {i : Int} : Signed text i → -Nat.pow 2 31 ≤ i → i ≤ Nat.pow 2 31 - 1 →
      Writes (.error (.code i)) (call "error" text)
  | fail : Writes (.error .fail) (call "error" ['f', 'a', 'i', 'l'])
  | getHeaders : Writes .getHeaders "get_headers".toList
  | unknown {name : String} : IsName name.toList → name ∉ known →
      Writes (.unknown name) name.toList

/-- That a line says nothing: it is prose, or its arguments do not fit. -/
def Noise (l : List Char) : Prop :=
  '\n' ∉ l ∧ ∀ name args c, Phrase l name args → ¬ Fits (String.ofList name) args c

/-- That lines are other ones with noise between them. -/
inductive Strewn : List (List Char) → List (List Char) → Prop
  | nil : Strewn [] []
  | keep {ls ls' : List (List Char)} (l : List Char) : Strewn ls ls' → Strewn (l :: ls) (l :: ls')
  | noise {ls ls' : List (List Char)} {l : List Char} : Noise l → Strewn ls ls' →
      Strewn ls (l :: ls')

theorem not_blank_of_nameChar {c : Char} (h : isNameChar c = true) : Text.isBlank c = false := by
  by_contra hblank
  rw [not_nameChar_of_blank (by simpa using hblank)] at h
  cases h

theorem IsName.nameChar (h : IsName l) : ∀ c ∈ l, isNameChar c = true := by
  obtain ⟨c, rest, rfl, hc, hrest⟩ := h
  refine List.forall_mem_cons.mpr ⟨?_, hrest⟩
  rcases Bool.or_eq_true_iff.mp hc with halpha | hunderscore
  · simp [isNameChar, Char.isAlphanum, halpha]
  · simp [isNameChar, hunderscore]

theorem IsName.isTrimmed (h : IsName l) : IsTrimmed l :=
  Text.isTrimmed_of_forall fun c hc => not_blank_of_nameChar (h.nameChar c hc)

theorem IsName.notMem_newline (h : IsName l) : '\n' ∉ l := by
  intro hmem
  cases h.nameChar _ hmem

theorem phrase_name (h : IsName l) : Phrase l l none := ⟨l, h.isTrimmed.trims, .bare h⟩

theorem phrase_call (hname : IsName name.toList) (hraw : '\n' ∉ raw) :
    Phrase (call name raw) name.toList (some raw) := by
  have hparen : IsTrimmed [')'] := Text.isTrimmed_of_all (by decide)
  obtain ⟨c, rest, hcs, -, -⟩ := id hname
  have hne : name.toList ≠ [] := by simp [hcs]
  have htrimmed : IsTrimmed (name.toList ++ ('(' :: raw ++ [')'])) :=
    hname.isTrimmed.append hparen hne (List.cons_ne_nil _ _)
  exact ⟨call name raw, htrimmed.trims, .call hname Text.isSpace_nil hraw⟩

theorem notMem_newline_call (hname : IsName name.toList) (hraw : '\n' ∉ raw) :
    '\n' ∉ call name raw := by
  simp [call, hname.notMem_newline, hraw]

theorem keyed_of_head {c d : Char} {rest rest' : List Char} (hkey : key.toList = d :: rest')
    (hne : c ≠ d) : Keyed key (c :: rest) (c :: rest) := by
  refine .bare fun gap tail _ heq => ?_
  rw [hkey] at heq
  exact hne (List.cons.inj heq).1

theorem denotes_of_head {c : Char} {rest : List Char} (hne : c ≠ '"') :
    Denotes (c :: rest) (c :: rest) := by
  refine .verbatim fun s h => ?_
  obtain ⟨body, -, heq⟩ := h
  exact hne (List.cons.inj heq).1

theorem sole_of_head {c d : Char} {rest rest' : List Char} (htrimmed : IsTrimmed (c :: rest))
    (hkey : key.toList = d :: rest') (hne : c ≠ d) :
    Sole key (some (c :: rest)) (c :: rest) :=
  ⟨_, ⟨_, rfl, htrimmed.trims, List.cons_ne_nil c rest⟩, keyed_of_head hkey hne⟩

def commandOf? (l : List Char) : Option Command := (ofLine? l).bind (·.command.toOption)

theorem commandOf?_of_fits {args : Option (List Char)} (h : Phrase l name.toList args)
    (hfits : Fits name args c) : commandOf? l = some c := by
  rw [← String.ofList_toList (s := name)] at hfits
  rw [commandOf?, ofLine?_of_fits h hfits]
  rfl

theorem noise_iff : Noise l ↔ '\n' ∉ l ∧ commandOf? l = none := by
  refine and_congr_right fun _ => ⟨fun h => ?_, fun h name args c hphrase hfits => ?_⟩
  · cases hline : ofLine? l with
    | none => rw [commandOf?, hline, Option.bind_none]
    | some found =>
        obtain ⟨name, args, hphrase, -, hcommand⟩ := phrase_of_ofLine? hline
        rw [commandOf?, hline, Option.bind_some, hcommand]
        cases hread : ofParts (String.ofList name) (args.map Text.trim) with
        | error fault => rfl
        | ok c => exact absurd (fits_of_ofParts hread) (h name args c hphrase)
  · rw [commandOf?, ofLine?_of_fits hphrase hfits] at h
    cases h

def isAmountChar (c : Char) : Bool := c.isDigit || c ∈ ['+', '-', 'm', 's']

theorem isAmountChar_of_isDigit {c : Char} (h : c.isDigit = true) : isAmountChar c = true := by
  simp [isAmountChar, h]

theorem not_blank_of_amountChar {c : Char} (h : isAmountChar c = true) :
    Text.isBlank c = false := by
  rcases Bool.or_eq_true_iff.mp h with hdigit | hletter
  · exact Text.isBlank_of_isDigit hdigit
  · exact Text.not_blank_of_all (by decide) (of_decide_eq_true hletter)

theorem sole_amount (key : String) {d : Char} {rest : List Char} (hne : raw ≠ [])
    (hall : ∀ c ∈ raw, isAmountChar c = true) (hkey : key.toList = d :: rest)
    (hd : isAmountChar d = false) : Sole key (some raw) raw ∧ '\n' ∉ raw := by
  constructor
  · obtain ⟨c, raw, rfl⟩ := List.exists_cons_of_ne_nil hne
    refine sole_of_head (Text.isTrimmed_of_forall fun e he => ?_) hkey ?_
    · exact not_blank_of_amountChar (hall e he)
    · rintro rfl
      rw [hall c List.mem_cons_self] at hd
      cases hd
  · intro hmem
    cases hall _ hmem

theorem isAmountChar_of_signed {i : Int} (h : Signed text i) :
    ∀ c ∈ text, isAmountChar c = true := by
  obtain ⟨c, rest, rfl, hc, hrest⟩ := h.cons
  refine List.forall_mem_cons.mpr ⟨?_, fun d hd => isAmountChar_of_isDigit (hrest d hd)⟩
  rcases hc with hdigit | hsign
  · exact isAmountChar_of_isDigit hdigit
  · have hall : ['+', '-'].all isAmountChar = true := by decide
    exact List.all_eq_true.mp hall c hsign

theorem fits_respond (k : RespondKind) {payload value s : List Char} (htrimmed : IsTrimmed payload)
    (hne : payload ≠ []) (hkey : Keyed "payload" payload value) (hs : Denotes value s) :
    Fits "respond" (some (k.name.toList ++ ',' :: ' ' :: payload))
      (.respond k (String.ofList s)) := by
  have hkind : IsTrimmed k.name.toList ∧ k.name.toList ≠ [] ∧ ',' ∉ k.name.toList ∧
      Keyed "kind" k.name.toList k.name.toList := by
    cases k <;> refine ⟨Text.isTrimmed_of_all (by decide), by decide, by decide, ?_⟩ <;>
      exact keyed_of_head (d := 'k') rfl (by decide)
  obtain ⟨hkindTrimmed, hkindNe, hcomma, hkindKey⟩ := hkind
  have hraw : IsTrimmed (k.name.toList ++ ([',', ' '] ++ payload)) :=
    hkindTrimmed.append htrimmed hkindNe hne
  have hpayload : Trims (' ' :: payload) payload :=
    ⟨htrimmed, [' '], [], by simp [IsSpace, Text.isBlank], Text.isSpace_nil, by simp⟩
  refine .respond ⟨_, rfl, hraw.trims, by simp [hkindNe]⟩ hcomma ?_ ⟨payload, hpayload, hkey⟩ hs
  exact ⟨_, hkindTrimmed.trims, hkindKey⟩

theorem isName_of_known (h : name ∈ known) : IsName name.toList := by
  simp only [known, List.mem_cons, List.not_mem_nil, or_false] at h
  rcases h with rfl | rfl | rfl | rfl | rfl | rfl <;>
    exact ⟨_, _, rfl, rfl, List.all_eq_true.mp (by decide)⟩

structure Speaks (l : List Char) (name : String) (args : Option (List Char)) (c : Command) :
    Prop where
  phrase : Phrase l name.toList args
  fits : Fits name args c
  notMem_newline : '\n' ∉ l

theorem speaks_call (hname : name ∈ known) (hraw : '\n' ∉ raw)
    (hfits : Fits name (some raw) c) :
    Speaks (call name raw) name (some raw) c where
  phrase := phrase_call (isName_of_known hname) hraw
  fits := hfits
  notMem_newline := notMem_newline_call (isName_of_known hname) hraw

theorem keyed_of_literal (key : String) {s : List Char} {d : Char} {rest : List Char}
    (h : Literal text s) (hkey : key.toList = d :: rest) (hd : d ≠ '"') : Keyed key text text := by
  obtain ⟨body, -, rfl⟩ := h
  exact keyed_of_head hkey hd.symm

theorem ne_nil_of_literal {s : List Char} (h : Literal text s) : text ≠ [] := by
  obtain ⟨body, -, rfl⟩ := h
  exact List.cons_ne_nil _ _

theorem denotes_of_signed {i : Int} (h : Signed text i) : Denotes text text := by
  obtain ⟨c, rest, rfl, hc, -⟩ := h.cons
  apply denotes_of_head
  rintro rfl
  rcases hc with hdigit | hsign
  · cases hdigit
  · exact absurd hsign (by decide)

theorem isAmountChar_append {n : Nat} (unit : List Char) (h : Digits digits n)
    (hunit : unit.all isAmountChar = true) : ∀ c ∈ digits ++ unit, isAmountChar c = true := by
  intro c hc
  rcases List.mem_append.mp hc with hc | hc
  · exact isAmountChar_of_isDigit (h.digits c hc)
  · exact List.all_eq_true.mp hunit c hc

theorem Writes.speaks (h : Writes c l) : ∃ name args, Speaks l name args c := by
  cases h with
  | @millis digits n hdigits hn =>
      have hall := isAmountChar_append ['m', 's'] hdigits (by decide)
      obtain ⟨hsole, hline⟩ := sole_amount "duration" (by simp) hall rfl rfl
      have htimed := Timed.millis hdigits Text.isSpace_nil
      rw [List.append_nil] at htimed
      rw [← Nat.mul_one n]
      exact ⟨_, _, speaks_call (by simp [known]) hline (.wait hsole htimed hn)⟩
  | @seconds digits n hdigits hn =>
      have hall := isAmountChar_append ['s'] hdigits (by decide)
      obtain ⟨hsole, hline⟩ := sole_amount "duration" (by simp) hall rfl rfl
      have htimed := Timed.seconds hdigits Text.isSpace_nil
      rw [List.append_nil] at htimed
      exact ⟨_, _, speaks_call (by simp [known]) hline (.wait hsole htimed hn)⟩
  | @respond text s k htext =>
      have hkey := keyed_of_literal "payload" htext rfl (by decide)
      have hfits := fits_respond k htext.isTrimmed (ne_nil_of_literal htext) hkey (.literal htext)
      refine ⟨_, _, speaks_call (by simp [known]) ?_ hfits⟩
      have hkind : '\n' ∉ k.name.toList := by cases k <;> decide
      simp [hkind, htext.notMem_newline]
  | @ask text s htext =>
      have hkey := keyed_of_literal "prompt" htext rfl (by decide)
      have hgiven : Given (some text) text :=
        ⟨text, rfl, htext.isTrimmed.trims, ne_nil_of_literal htext⟩
      exact ⟨_, _, speaks_call (by simp [known]) htext.notMem_newline
        (.ask ⟨text, hgiven, hkey⟩ (.literal htext))⟩
  | @stream digits n hdigits hpos hn =>
      have hsigned := Signed.bare hdigits
      obtain ⟨hsole, hline⟩ :=
        sole_amount "count" hdigits.ne_nil (isAmountChar_of_signed hsigned) rfl rfl
      exact ⟨_, _, speaks_call (by simp [known]) hline (.stream hsole hsigned hpos hn)⟩
  | @code text i hsigned hlow hhigh =>
      obtain ⟨c, rest, hcs, -, -⟩ := hsigned.cons
      obtain ⟨hsole, hline⟩ :=
        sole_amount "code" (by simp [hcs]) (isAmountChar_of_signed hsigned) rfl rfl
      exact ⟨_, _, speaks_call (by simp [known]) hline
        (.code hsole (denotes_of_signed hsigned) hsigned hlow hhigh)⟩
  | fail =>
      have hsole : Sole "code" (some ['f', 'a', 'i', 'l']) ['f', 'a', 'i', 'l'] :=
        sole_of_head (Text.isTrimmed_of_all (by decide)) rfl (by decide)
      have hs : Denotes ['f', 'a', 'i', 'l'] ['f', 'a', 'i', 'l'] := denotes_of_head (by decide)
      exact ⟨_, _, speaks_call (by simp [known]) (by decide) (.fail hsole hs)⟩
  | getHeaders =>
      have hname : IsName "get_headers".toList := isName_of_known (by simp [known])
      exact ⟨_, none, phrase_name hname, .getHeaders (by simp), hname.notMem_newline⟩
  | unknown hname hother =>
      exact ⟨_, none, phrase_name hname, .unknown hother, hname.notMem_newline⟩

theorem Writes.commandOf? (h : Writes c l) : commandOf? l = some c := by
  obtain ⟨name, args, hspeaks⟩ := h.speaks
  exact commandOf?_of_fits hspeaks.phrase hspeaks.fits

theorem Writes.notMem_newline (h : Writes c l) : '\n' ∉ l := by
  obtain ⟨name, args, hspeaks⟩ := h.speaks
  exact hspeaks.notMem_newline

theorem dropReturn_commandOf? (l : List Char) :
    Command.commandOf? (Text.dropReturn l) = Command.commandOf? l := by
  unfold Command.commandOf? ofLine? split?
  rw [Text.trim_dropReturn]

theorem ofText_lines (h : ∀ l ∈ ls, '\n' ∉ l) :
    ofText (String.ofList (['\n'].intercalate ls)) = ls.filterMap Command.commandOf? := by
  rw [ofText, String.toList_ofList]
  exact Text.filterMap_lines dropReturn_commandOf? rfl h

theorem Strewn.notMem_newline (h : Strewn ls ls') (hls : ∀ l ∈ ls, '\n' ∉ l) :
    ∀ l ∈ ls', '\n' ∉ l := by
  induction h with
  | nil => exact hls
  | keep l _ ih =>
      obtain ⟨hl, hls⟩ := List.forall_mem_cons.mp hls
      exact List.forall_mem_cons.mpr ⟨hl, ih hls⟩
  | noise hl _ ih => exact List.forall_mem_cons.mpr ⟨hl.1, ih hls⟩

theorem Strewn.filterMap (h : Strewn ls ls') :
    ls'.filterMap Command.commandOf? = ls.filterMap Command.commandOf? := by
  induction h with
  | nil => rfl
  | keep l _ ih => rw [List.filterMap_cons, List.filterMap_cons, ih]
  | noise hl _ ih => rw [List.filterMap_cons_none (noise_iff.mp hl).2, ih]

theorem filterMap_of_writes (h : List.Forall₂ Writes cs ls) :
    ls.filterMap Command.commandOf? = cs := by
  induction h with
  | nil => rfl
  | cons hl _ ih => rw [List.filterMap_cons_some hl.commandOf?, ih]

theorem notMem_newline_of_writes (h : List.Forall₂ Writes cs ls) : ∀ l ∈ ls, '\n' ∉ l := by
  induction h with
  | nil => exact List.forall_mem_nil _
  | cons hl _ ih => exact List.forall_mem_cons.mpr ⟨hl.notMem_newline, ih⟩

/-- That a command can be written down: its amounts are within bounds, and its name, where that is
none of those that are known, is a name. -/
def Writable : Command → Prop
  | .wait ms => ∃ n, n ≤ maxAmount ∧ (ms = n ∨ ms = n * 1000)
  | .stream n => 1 ≤ n ∧ n ≤ Nat.pow 2 32 - 1
  | .error (.code i) => -Nat.pow 2 31 ≤ i ∧ i ≤ Nat.pow 2 31 - 1
  | .unknown name => IsName name.toList ∧ name ∉ known
  | .respond _ _ | .ask _ | .error .fail | .getHeaders => True

theorem Writable.writes (h : c.Writable) : ∃ l, Writes c l := by
  have hliteral (s : String) : Literal (Json.quoteChars s.toList) s.toList :=
    Json.literal_quoteChars s.toList
  cases c with
  | wait ms =>
      obtain ⟨n, hn, rfl | rfl⟩ := h
      · exact ⟨_, .millis Text.digits_toDigits hn⟩
      · exact ⟨_, .seconds Text.digits_toDigits hn⟩
  | respond k payload =>
      have hwrites := Writes.respond k (hliteral payload)
      rw [String.ofList_toList] at hwrites
      exact ⟨_, hwrites⟩
  | ask prompt =>
      have hwrites := Writes.ask (hliteral prompt)
      rw [String.ofList_toList] at hwrites
      exact ⟨_, hwrites⟩
  | stream n => exact ⟨_, .stream Text.digits_toDigits h.1 h.2⟩
  | error outcome =>
      cases outcome with
      | code i => exact ⟨_, .code Text.signed_intChars h.1 h.2⟩
      | fail => exact ⟨_, .fail⟩
  | getHeaders => exact ⟨_, .getHeaders⟩
  | unknown name => exact ⟨_, .unknown h.1 h.2⟩

/-- Commands that can be written down are, one a line, and a text of such lines is read as the
commands, whatever noise stands between the lines. -/
theorem ofText_written (cs : List Command) (h : ∀ c ∈ cs, c.Writable) :
    (∃ ls, List.Forall₂ Writes cs ls) ∧
    ∀ ls, List.Forall₂ Writes cs ls →
      ofText (String.ofList (['\n'].intercalate ls)) = cs ∧
      ∀ ls', Strewn ls ls' → ofText (String.ofList (['\n'].intercalate ls')) = cs := by
  constructor
  · induction cs with
    | nil => exact ⟨[], .nil⟩
    | cons c cs ih =>
        obtain ⟨hc, hcs⟩ := List.forall_mem_cons.mp h
        obtain ⟨l, hl⟩ := hc.writes
        obtain ⟨ls, hls⟩ := ih hcs
        exact ⟨l :: ls, .cons hl hls⟩
  · intro ls hls
    have hlines := notMem_newline_of_writes hls
    refine ⟨?_, fun ls' hstrewn => ?_⟩
    · rw [ofText_lines hlines, filterMap_of_writes hls]
    · rw [ofText_lines (hstrewn.notMem_newline hlines), hstrewn.filterMap, filterMap_of_writes hls]

theorem ofText_written_among_prose :
    (∀ c ∈ [Command.wait 5000, .respond .text "a, (b)"], c.Writable) ∧
      ofText (String.ofList (['\n'].intercalate ["Hello there, agent.".toList, "wait(5s)".toList,
        "stream(0)".toList, "respond(text, \"a, (b)\")".toList])) =
          [.wait 5000, .respond .text "a, (b)"] := by
  have hwritable : ∀ c ∈ [Command.wait 5000, .respond .text "a, (b)"], c.Writable := by
    refine List.forall_mem_cons.mpr ⟨⟨5, by decide, .inr rfl⟩, ?_⟩
    exact List.forall_mem_singleton.mpr trivial
  have hwait : Writes (.wait (5 * 1000)) (call "wait" (Nat.toDigits 10 5 ++ ['s'])) :=
    .seconds Text.digits_toDigits (by decide)
  have hrespond := Writes.respond .text (Json.literal_quoteChars "a, (b)".toList)
  have hlines := (ofText_written _ hwritable).2 _ (.cons hwait (.cons hrespond .nil))
  have hprose : Noise "Hello there, agent.".toList := noise_iff.mpr (by decide)
  have hfaulty : Noise "stream(0)".toList := noise_iff.mpr (by decide)
  exact ⟨hwritable, hlines.2 _ (.noise hprose (.keep _ (.noise hfaulty (.keep _ .nil))))⟩

end AgentGateway.Command
