import Smqueue.Gateways
import Smqueue.Lib.Proofs.ShellProofs
import Smqueue.Proofs.QueueRecordsProofs
import Smqueue.SampleLibs

/-!
# Proofs: gateways

The template of a command is read up to the texts of the message, which then have to stand for
themselves.
-/

namespace Smqueue

variable {env : Env} {imsi body line address subject url : CString} {submit : TLSubmit}
  {cfg : Config}

/-! ## Formats -/

theorem sprintf_cons {c : UInt8} (hc : c ≠ 37) (format : CString) (args : List CString) :
    sprintf (c :: format) args = (sprintf format args).map (c :: ·) := by
  rw [sprintf]
  · exact fun _ h _ => hc h
  · exact hc
  · exact fun _ _ _ _ h _ => hc h

/-- No other conversion is defined. -/
theorem sprintf_other {format : CString} {args : List CString}
    (hstring : ∀ rest arg args', args = arg :: args' → format = 115 :: rest → False)
    (hpercent : ∀ rest, format = 37 :: rest → False) : sprintf (37 :: format) args = none := by
  rw [sprintf]
  · exact hpercent
  · exact hstring

/-- The text before the first conversion is printed as it is. -/
theorem sprintf_append {p : CString} (hp : 37 ∉ p) (format : CString) (args : List CString) :
    sprintf (p ++ format) args = (sprintf format args).map (p ++ ·) := by
  induction p with
  | nil =>
    change sprintf format args = (sprintf format args).map id
    rw [Option.map_id]
    rfl
  | cons c p ih =>
    have hc : c ≠ 37 := fun h => hp (h ▸ List.mem_cons_self)
    rw [List.cons_append, sprintf_cons hc, ih fun h => hp (List.mem_cons_of_mem c h),
      Option.map_map]
    rfl

/-- So is a quote at the end. -/
theorem sprintf_quote (format : CString) (args : List CString) :
    sprintf (format ++ [34]) args = (sprintf format args).map (· ++ [34]) := by
  fun_induction sprintf format args with
  | case1 => rfl
  | case2 format arg args ih =>
    change (sprintf (format ++ [34]) args).map (arg ++ ·) = _
    rw [ih, Option.map_map, Option.map_map]
    refine congrArg (Option.map · _) (funext fun t => ?_)
    exact (List.append_assoc arg t [34]).symm
  | case3 format args ih =>
    change (sprintf (format ++ [34]) args).map (37 :: ·) = _
    rw [ih, Option.map_map, Option.map_map]
    rfl
  | case4 format args hstring hpercent =>
    rw [List.cons_append]
    refine sprintf_other ?_ ?_
    · intro rest arg args' hargs hrest
      cases format with
      | nil => cases hrest
      | cons c format =>
        cases hrest
        exact hstring format arg args' hargs rfl
    · intro rest hrest
      cases format with
      | nil => cases hrest
      | cons c format =>
        cases hrest
        exact hpercent format rfl
  | case5 c format args hstring hpercent hc ih =>
    rw [List.cons_append, sprintf_cons hc, ih, Option.map_map, Option.map_map]
    rfl

/-! ## Words of the templates -/

theorem isPlainWord_printInt (n : Int) : Shell.isPlainWord (printInt n) = true := by
  have hdigits : ∀ k : Nat, ∀ c ∈ decimal k, Shell.isNameChar c = true := by
    intro k c hc
    have hdigit := isDigit_decimal k c hc
    unfold InputStream.isDigit at hdigit
    unfold Shell.isNameChar
    rw [hdigit]
    simp
  rw [Shell.isPlainWord_iff]
  unfold printInt decimalInt
  split
  · refine ⟨List.cons_ne_nil _ _, fun c hc => ?_⟩
    rcases List.mem_cons.1 hc with rfl | hc
    · exact .inr rfl
    · exact .inl (hdigits _ c hc)
  · exact ⟨decimal_ne_nil _, fun c hc => .inl (hdigits _ c hc)⟩

/-- The words of the web command in front of the address. -/
def httpWords (cfg : Config) : List CString :=
  [str "wget", str "-t", printInt cfg.httpGatewayRetries, str "-T",
    printInt cfg.httpGatewayTimeout, str "-q", str "-O", str "-"]

theorem isPlainWord_httpWords (cfg : Config) : ∀ s ∈ httpWords cfg, Shell.isPlainWord s = true := by
  unfold httpWords
  simp only [List.forall_mem_cons]
  exact ⟨by decide, by decide, isPlainWord_printInt _, by decide, isPlainWord_printInt _, by decide,
    by decide, by decide, nofun⟩

theorem httpFormat_eq (cfg : Config) :
    httpFormat cfg = (httpWords cfg).flatMap (· ++ [32]) ++ 34 :: (cfg.httpGatewayUrl ++ [34]) := by
  unfold httpFormat httpWords
  have hwget : str "wget -t " = str "wget" ++ [32] ++ (str "-t" ++ [32]) := by decide
  have htimeout : str " -T " = [32] ++ (str "-T" ++ [32]) := by decide
  have hrest : str " -q -O - \"" =
      [32] ++ (str "-q" ++ [32]) ++ (str "-O" ++ [32]) ++ (str "-" ++ [32]) ++ [34] := by decide
  have hquote : str "\"" = [34] := by decide
  rw [hwget, htimeout, hrest, hquote]
  simp only [List.flatMap_cons, List.flatMap_nil, List.append_assoc, List.append_nil,
    List.cons_append, List.nil_append]

/-- The words have no conversions. -/
theorem percent_notMem_words {l : List CString} (hl : ∀ s ∈ l, Shell.isPlainWord s = true) :
    37 ∉ l.flatMap (· ++ [32]) := by
  intro h
  obtain ⟨s, hs, hc⟩ := List.mem_flatMap.1 h
  rcases List.mem_append.1 hc with hc | hc
  · rcases (Shell.isPlainWord_iff.1 (hl s hs)).2 37 hc with hname | hhyphen
    · exact absurd hname (by decide)
    · exact absurd hhyphen (by decide)
  · exact absurd (List.mem_singleton.1 hc) (by decide)

/-- The web command is its words and the quoted address. -/
theorem sendHTTP_eq (cfg : Config) (destination message : CString) :
    sendHTTP cfg destination message =
      (sprintf cfg.httpGatewayUrl [destination, convertText message]).map fun url =>
        (httpWords cfg).flatMap (· ++ [32]) ++ 34 :: (url ++ [34]) := by
  unfold sendHTTP
  rw [httpFormat_eq, sprintf_append (percent_notMem_words (isPlainWord_httpWords cfg)),
    sprintf_cons (by decide), sprintf_quote, Option.map_map, Option.map_map]
  rfl

theorem run_httpWords (cfg : Config) :
    Shell.Reader.run {} ((httpWords cfg).flatMap (· ++ [32])) =
      some ⟨.plain, Shell.unquoted (httpWords cfg), none⟩ :=
  Shell.run_words (isPlainWord_httpWords cfg)

theorem isCommand_httpWords (cfg : Config) :
    Shell.isCommand (Shell.unquoted (httpWords cfg)) = true :=
  Shell.isCommand_words (by decide) fun s hs =>
    isPlainWord_httpWords cfg s (List.mem_cons_of_mem _ hs)

/-! ## Mail -/

def mailWords : List CString := [str "mail", str "-s"]

theorem sendEMail_eq (address subject : CString) :
    sendEMail address (some subject) =
      mailWords.flatMap (· ++ [32]) ++ 34 :: (subject ++ 34 :: 32 :: address) := by
  have hmail : str "mail -s \"" = mailWords.flatMap (· ++ [32]) ++ [34] := by decide
  have hquote : str "\" " = [34, 32] := by decide
  unfold sendEMail
  rw [hmail, hquote]
  simp only [List.append_assoc, List.cons_append, List.nil_append]

namespace SMq

/-- An address is all graphic characters. -/
theorem isgraph_mailAddress (h : startsWithEmail body = true) :
    ∀ c ∈ mailAddress body, isgraph c = true := by
  unfold startsWithEmail at h
  rw [Bool.and_eq_true, decide_eq_true_eq] at h
  have hword : ∀ c ∈ body.takeWhile isgraph, isgraph c = true := 
    List.all_eq_true.1 List.all_takeWhile
  have hbody : body = body.takeWhile isgraph ++ body.drop (body.takeWhile isgraph).length := by
    rw [List.prefix_iff_eq_append.1 (List.takeWhile_prefix isgraph)]
  cases hrest : body.drop (body.takeWhile isgraph).length with
  | nil =>
    rw [hrest] at h
    cases h.1
  | cons c rest =>
    rw [hrest] at h hbody
    cases h.1
    have haddress : mailAddress body = body.takeWhile isgraph := by
      unfold mailAddress
      conv => lhs; rw [hbody]
      rw [List.takeWhile_append_of_pos, List.takeWhile_cons_of_neg (by decide), List.append_nil]
      intro c hc
      rw [decide_eq_true_eq]
      rintro rfl
      exact absurd (hword 32 hc) (by decide)
    rw [haddress]
    exact hword

theorem isBlank_mailAddress (h : startsWithEmail body = true) :
    ∀ c ∈ mailAddress body, Shell.isBlank c = false := by
  intro c hc
  have hgraph := isgraph_mailAddress h c hc
  rw [← Bool.not_eq_true]
  intro hblank
  unfold Shell.isBlank at hblank
  rw [Bool.or_eq_true, decide_eq_true_eq, decide_eq_true_eq] at hblank
  rcases hblank with rfl | rfl
  · exact absurd hgraph (by decide)
  · exact absurd hgraph (by decide)

/-! ## The commands -/

/-- The command is the one that is meant exactly if the texts in it stand for themselves. -/
theorem commandMeant_iff (env : Env) (imsi : CString) (submit : TLSubmit) (body : CString) :
    CommandMeant env imsi submit body ↔ Quotable env imsi submit body := by
  unfold CommandMeant Quotable submitCommand submitWords
  by_cases hemail : startsWithEmail body = true
  · simp only [if_pos hemail, Option.some.injEq, forall_eq']
    rw [sendEMail_eq]
    have hmail : Shell.Reader.run {} (mailWords.flatMap (· ++ [32])) =
        some ⟨.plain, Shell.unquoted mailWords, none⟩ := by decide +kernel
    exact Shell.simpleCommand_quoted_bare hmail (by decide +kernel) (isBlank_mailAddress hemail)
  · simp only [if_neg hemail]
    by_cases hweb : usesHTTPGateway env submit = true
    · simp only [if_pos hweb]
      rw [sendHTTP_eq]
      change (∀ line, (gatewayUrl env submit body).map _ = some line → _) ↔ _
      cases gatewayUrl env submit body with
      | none => exact ⟨fun _ _ => nofun, fun _ _ => nofun⟩
      | some url =>
        have hcommand := Shell.simpleCommand_quoted (s := url) (run_httpWords env.config)
          (isCommand_httpWords env.config)
        rw [Shell.text_unquoted] at hcommand
        constructor
        · rintro h - url' ⟨⟩
          exact hcommand.1 (h _ rfl)
        · rintro h line ⟨⟩
          exact hcommand.2 (h hweb url rfl)
    · rw [if_neg hweb]
      exact ⟨fun _ h => absurd h hweb, fun _ _ h => by cases h⟩

/-- No text with a quote in it is safe behind the address of a web server. -/
theorem reboot_smuggled : ∃ env imsi submit body, ShortMsg.decodedText submit.ud = .ok body ∧
    ¬ CommandMeant env imsi submit body := by
  let env : Env := { sampleEnv 0 with
    config := { httpGatewayUrl := str "http://gateway/send?to=%s&text=%s" } }
  let body := str "\";reboot;\""
  let submit : TLSubmit :=
    { rd := false, vpf := 0, rp := false, srr := false, mr := 0, da := Address.ofDigits (str "2600"),
      pi := 0, vp := .week, ud := TLUserData.encode7bit body }
  refine ⟨env, [], submit, body, by decide +kernel, fun h => ?_⟩
  have hread : (submitCommand env [] submit body).any fun line =>
      Shell.simpleCommand line ≠ submitWords env [] submit body := by decide +kernel
  obtain ⟨line, hline, hne⟩ := (Option.any_eq_true _ _).1 hread
  exact of_decide_eq_true hne (h line hline)

/-- Where there is a command, it is all that is done. -/
theorem submitSMS_command {m : ShortMsg} (h : submitCommand env imsi submit body = some line) :
    submitSMS env submit body m = .ok (if env.gatewayRuns then .done else .internalError, m) := by
  unfold submitCommand at h
  unfold submitSMS
  split at h
  · rename_i hemail
    rw [if_pos hemail]
    rfl
  · rename_i hemail
    rw [if_neg hemail]
    split at h
    · rename_i hweb
      unfold usesHTTPGateway at hweb
      dsimp only
      rw [hweb]
      rfl
    · cases h

end SMq

end Smqueue
