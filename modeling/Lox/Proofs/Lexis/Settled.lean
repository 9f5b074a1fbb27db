/-
  Settled text — what follows in a source cannot revise what has been scanned.

  A piece is recognised with ALL that follows it in view.  Here it is shown that TWO characters are
  enough: `7.` is a number and a point, or the beginning of one number, and only the character behind
  the point decides.

  1. **Lookahead** — a piece keeps its form and its text if the two characters behind it stay.
  2. **Sites** — so two sources that begin alike have the same pieces there, up to two characters before
     the place where they may part.  Nothing that is open at that place has been reported yet.
  3. **Endings** — the tokens and errors of a scan, each with the place at which its text ends.
  4. **Scans** — those that end two characters before the place are the same in both sources.
-/
import Lox.Proofs.Lexis.Seam
import Lox.Proofs.Lexis.Sites

namespace Lox

/-! ## Lookahead -/

variable {form : Form} {text rest rest' cs cs' before : List Char} {ps ps' : List Piece} {k : Nat}

theorem head?_eq_of_take_two (hsame : rest.take 2 = rest'.take 2) : rest.head? = rest'.head? := by
  have hhead := congrArg List.head? hsame
  rwa [List.head?_take, List.head?_take, if_neg (by decide), if_neg (by decide)] at hhead

/-- A symbol that begins here needs no more than two characters. -/
theorem Symbol.prefix_of_take_two {s t : Symbol} (hsame : rest.take 2 = rest'.take 2)
    (h : t.spelling.toList <+: s.spelling.toList ++ rest') :
    t.spelling.toList <+: s.spelling.toList ++ rest := by
  have hlength : t.spelling.toList.length ≤ s.spelling.toList.length + 2 := by
    have htwo := t.length_le_two
    rw [String.length_toList]
    omega
  have htake := List.prefix_take_iff.mpr ⟨h, hlength⟩
  rw [List.take_length_add_append, ← hsame] at htake
  exact htake.trans ((List.prefix_append_right_inj _).mpr (List.take_prefix 2 rest))

/-- **A lexeme looks ahead at two characters.** -/
theorem Lexeme.of_lookahead (h : Lexeme form text rest) (hsame : rest.take 2 = rest'.take 2) :
    Lexeme form text rest' := by
  have hhead := head?_eq_of_take_two hsame
  cases h with
  | blank hc => exact .blank hc
  | lineComment hbody hrest => exact .lineComment hbody (hhead ▸ hrest)
  | blockComment hbody => exact .blockComment hbody
  | string hbody => exact .string hbody
  | whole hne hdigits hrest hpoint =>
    refine .whole hne hdigits (hhead ▸ hrest) ?_
    rintro d more rfl
    -- the point and what is behind it are the two characters
    rcases rest with _ | ⟨c, _ | ⟨d', rest⟩⟩
    · cases hsame
    · cases hsame
    · obtain ⟨rfl, hbehind⟩ := List.cons.inj hsame
      obtain ⟨rfl, -⟩ := List.cons.inj hbehind
      exact hpoint d' rest rfl
  | fraction hne hdigits hplaces hall hrest =>
    exact .fraction hne hdigits hplaces hall (hhead ▸ hrest)
  | word hc hbody hrest => exact .word hc hbody (hhead ▸ hrest)
  | symbol hlongest hslash =>
    exact .symbol (fun t ht => hlongest t (Symbol.prefix_of_take_two hsame ht))
      fun hs => hhead ▸ hslash hs
  | openString hbody =>
    obtain rfl : rest' = [] := List.head?_eq_none_iff.mp hhead.symm
    exact .openString hbody
  | openComment hbody =>
    obtain rfl : rest' = [] := List.head?_eq_none_iff.mp hhead.symm
    exact .openComment hbody

/-- So does every piece. -/
theorem Shape.of_lookahead (h : Shape form text rest) (hsame : rest.take 2 = rest'.take 2) :
    Shape form text rest' := by
  cases h with
  | lexeme hlex => exact .lexeme (hlex.of_lookahead hsame)
  | stray hnot => exact .stray fun hstarts => hnot (hstarts.congr rest)

/-! ## Sites -/

/-- The place at which the piece ends: how many characters of the source come before it. -/
def Site.stop (s : Site) : Nat := s.before.length + s.piece.text.length

/-- At a site the source has the piece, which has its shape before what follows. -/
theorem Splits.shape_of_mem_sites (h : Splits cs ps) {s : Site} (hs : s ∈ sites before ps) :
    ∃ after, before ++ cs = s.before ++ s.piece.text ++ after ∧
      Shape s.piece.form s.piece.text after := by
  induction h generalizing before with
  | nil => cases hs
  | cons hshape _ ih =>
    rcases List.mem_cons.mp hs with rfl | hs
    · exact ⟨_, (List.append_assoc ..).symm, hshape⟩
    · obtain ⟨after, hafter, hshape'⟩ := ih hs
      exact ⟨after, by rw [← hafter, List.append_assoc], hshape'⟩

/-- Each piece ends before the next one begins. -/
theorem pairwise_stop (before : List Char) (ps : List Piece) :
    (sites before ps).Pairwise fun s s' => s.stop ≤ s'.before.length := by
  induction ps generalizing before with
  | nil => exact .nil
  | cons p ps ih =>
    refine .cons (fun s hs => ?_) (ih _)
    have hle := le_before_of_mem_sites hs
    rwa [List.length_append] at hle

/-- A piece that ends two characters before the sources may part is a piece of both. -/
theorem Shape.exists_settled (h : Shape form text rest) (hk : text.length + 2 ≤ k)
    (hsame : (text ++ rest).take k = cs'.take k) :
    ∃ rest', cs' = text ++ rest' ∧ Shape form text rest' ∧
      rest.take (k - text.length) = rest'.take (k - text.length) := by
  have hdrop : rest.take (k - text.length) = (cs'.drop text.length).take (k - text.length) := by
    have hboth := congrArg (List.drop text.length) hsame
    rwa [List.drop_take, List.drop_take, List.drop_left] at hboth
  have htext : cs'.take text.length = text := by
    have hboth := congrArg (List.take text.length) hsame
    rw [List.take_take, List.take_take, Nat.min_eq_left (by omega), List.take_left] at hboth
    exact hboth.symm
  have htwo : rest.take 2 = (cs'.drop text.length).take 2 := by
    have hboth := congrArg (List.take 2) hdrop
    rwa [List.take_take, List.take_take, Nat.min_eq_left (by omega)] at hboth
  refine ⟨cs'.drop text.length, ?_, h.of_lookahead htwo, hdrop⟩
  have hsplit := List.take_append_drop text.length cs'
  rw [htext] at hsplit
  exact hsplit.symm

/-- So the first piece of a source is the first of the other, if it is settled. -/
theorem Splits.exists_settled (h : Splits cs ps) (hsame : cs.take k = cs'.take k) :
    ∀ p ∈ ps.head?, p.text.length + 2 ≤ k →
      ∃ rest', cs' = p.text ++ rest' ∧ Shape p.form p.text rest' := by
  intro p hp hk
  cases h with
  | nil => cases hp
  | cons hshape _ =>
    obtain rfl := Option.some.inj hp
    obtain ⟨rest', hcs', hshape', -⟩ := hshape.exists_settled hk hsame
    exact ⟨rest', hcs', hshape'⟩

/-- If the first piece is not settled, none is. -/
theorem filter_settled_eq_nil (h : ∀ p ∈ ps.head?, ¬ p.text.length + 2 ≤ k) :
    (sites before ps).filter (fun s => s.stop + 2 ≤ before.length + k) = [] := by
  rw [List.filter_eq_nil_iff]
  intro s hs hsettled
  have hstop : s.before.length + s.piece.text.length + 2 ≤ before.length + k :=
    of_decide_eq_true hsettled
  cases ps with
  | nil => cases hs
  | cons p ps =>
    apply h p rfl
    rcases List.mem_cons.mp hs with rfl | hs
    · have hfirst : before.length + p.text.length + 2 ≤ before.length + k := hstop
      omega
    · have hle := le_before_of_mem_sites hs
      rw [List.length_append] at hle
      omega

/-- **Where two sources begin alike, they have the same settled pieces**, at the same sites. -/
theorem Splits.settled (h : Splits cs ps) (h' : Splits cs' ps') (hsame : cs.take k = cs'.take k)
    (before : List Char) :
    (sites before ps).filter (fun s => s.stop + 2 ≤ before.length + k)
      = (sites before ps').filter (fun s => s.stop + 2 ≤ before.length + k) := by
  induction h generalizing cs' ps' before k with
  | nil =>
    refine (filter_settled_eq_nil fun p hp hk => ?_).symm
    obtain ⟨rest, hnil, hshape⟩ := h'.exists_settled hsame.symm p hp hk
    exact hshape.ne_nil (List.append_eq_nil_iff.mp hnil.symm).1
  | @cons form text rest ps hshape _ ih =>
    by_cases hk : text.length + 2 ≤ k
    · obtain ⟨rest', rfl, hshape', hrest⟩ := hshape.exists_settled hk hsame
      have htail := ih (splits_pieces rest') hrest (before ++ text)
      have hplace : (before ++ text).length + (k - text.length) = before.length + k := by
        rw [List.length_append]
        omega
      rw [hplace] at htail
      rw [h'.eq_pieces, pieces_of_shape hshape', sites, sites, List.filter_cons, List.filter_cons,
        htail]
    · have hfirst : ∀ p ∈ ps'.head?, ¬ p.text.length + 2 ≤ k := by
        intro p hp hk'
        -- it would be the first piece here too
        obtain ⟨more, hmore, hshape'⟩ := h'.exists_settled hsame.symm p hp hk'
        have hboth := pieces_of_shape hshape
        rw [hmore, pieces_of_shape hshape'] at hboth
        have htext : p.text = text := congrArg Piece.text (List.cons.inj hboth).1
        exact hk (htext ▸ hk')
      rw [filter_settled_eq_nil hfirst, filter_settled_eq_nil]
      intro p hp
      obtain rfl := Option.some.inj hp
      exact hk

/-! ## Endings -/

section Endings

variable {α : Type} (find : Site → Option α)

/-- What is found at the sites of a source, each with the place at which its text ends. -/
def endings (source : String) : List (α × Nat) :=
  (sites [] (pieces source.toList)).filterMap fun s => (find s).map fun a => (a, s.stop)

/-- What is found at the sites, without the places. -/
theorem map_fst_endings (source : String) :
    (endings find source).map Prod.fst = (sites [] (pieces source.toList)).filterMap find := by
  rw [endings, List.map_filterMap]
  congr 1
  funext s
  cases find s <;> rfl

/-- What is found first ends first. -/
theorem pairwise_endings (source : String) :
    (endings find source).Pairwise fun x y => x.2 ≤ y.2 := by
  refine (pairwise_stop [] (pieces source.toList)).filterMap _ fun s s' hle x hx y hy => ?_
  obtain ⟨a, -, rfl⟩ := Option.map_eq_some_iff.mp hx
  obtain ⟨b, -, rfl⟩ := Option.map_eq_some_iff.mp hy
  exact Nat.le_trans hle (Nat.le_add_right _ _)

/-- What ends early is what is found at the sites that end early. -/
theorem filter_endings (source : String) (n : Nat) :
    (endings find source).filter (fun x => x.2 + 2 ≤ n)
      = ((sites [] (pieces source.toList)).filter fun s => s.stop + 2 ≤ n).filterMap
          fun s => (find s).map fun a => (a, s.stop) := by
  rw [endings, List.filter_filterMap, List.filterMap_filter]
  congr 1
  funext s
  cases find s with
  | none => rw [Option.map_none, Option.filter_none, ite_self]
  | some a => rw [Option.map_some, Option.filter_some]

/-- What two sources settle alike. -/
theorem settled_endings {s t : String} {n : Nat} (hsame : s.toList.take n = t.toList.take n) :
    (endings find s).filter (fun x => x.2 + 2 ≤ n)
      = (endings find t).filter fun x => x.2 + 2 ≤ n := by
  have hsites := (splits_pieces s.toList).settled (splits_pieces t.toList) hsame []
  rw [List.length_nil, Nat.zero_add] at hsites
  rw [filter_endings, filter_endings, hsites]

end Endings

/-- The tokens of a source with the places at which they end; the end of input is behind the last
    character. -/
def tokenEndings (source : String) : List (Token × Nat) :=
  endings (fun s => s.piece.token? s.line) source
    ++ [(.endOn (lastLine source.toList), source.length)]

/-- The errors of a source with the places at which their texts end. -/
def errorEndings (source : String) : List (ScanError × Nat) :=
  endings (fun s => s.piece.error? s.line) source

/-- The lexeme of the token ends at the place, and begins on the token's line.  The end of input has
    nothing behind it. -/
def Token.EndsAt (source : String) (t : Token) (stop : Nat) : Prop :=
  ∃ before after, source.toList = before ++ t.lexeme.toList ++ after ∧
    stop = (before ++ t.lexeme.toList).length ∧ t.line = 1 + newlines before ∧
    (t.isEof → after = [])

/-- The text that the error reports ends at the place, and begins on the error's line. -/
def ScanError.EndsAt (source : String) (e : ScanError) (stop : Nat) : Prop :=
  ∃ before form text after, source.toList = before ++ text ++ after ∧ Shape form text after ∧
    form.Faulty e.fault ∧ stop = (before ++ text).length ∧ e.line = 1 + newlines before

theorem located_eq (before : List Char) (ps : List Piece) :
    located (1 + newlines before) ps = (sites before ps).map fun s => (s.line, s.piece) := by
  induction ps generalizing before with
  | nil => rfl
  | cons p ps ih =>
    rw [located, sites, List.map_cons, ← ih, newlines_append, Nat.add_assoc]
    rfl

/-- What a scan reports is what is found at the sites. -/
theorem filterMap_located {α : Type} (find : Nat × Piece → Option α) (source : String) :
    (located 1 (pieces source.toList)).filterMap find
      = (sites [] (pieces source.toList)).filterMap fun s => find (s.line, s.piece) := by
  have hlocated := located_eq [] (pieces source.toList)
  rw [show 1 + newlines [] = 1 from rfl] at hlocated
  rw [hlocated, List.filterMap_map]
  rfl

/-- The tokens are those of the scan. -/
theorem map_fst_tokenEndings (source : String) :
    (tokenEndings source).map Prod.fst = (scan source).tokens := by
  rw [tokenEndings, List.map_append, map_fst_endings]
  show _ = (located 1 (pieces source.toList)).filterMap _ ++ _
  rw [filterMap_located]
  rfl

/-- The errors are those of the scan. -/
theorem map_fst_errorEndings (source : String) :
    (errorEndings source).map Prod.fst = (scan source).errors := by
  rw [errorEndings, map_fst_endings]
  show _ = (located 1 (pieces source.toList)).filterMap _
  rw [filterMap_located]

theorem exists_of_mem_endings {α : Type} {find : Site → Option α} {source : String} {x : α × Nat}
    (h : x ∈ endings find source) :
    ∃ s, find s = some x.1 ∧ x.2 = s.stop ∧
      ∃ after, source.toList = s.before ++ s.piece.text ++ after ∧
        Shape s.piece.form s.piece.text after := by
  obtain ⟨s, hs, hx⟩ := List.mem_filterMap.mp h
  obtain ⟨a, ha, rfl⟩ := Option.map_eq_some_iff.mp hx
  exact ⟨s, ha, rfl, (splits_pieces source.toList).shape_of_mem_sites hs⟩

/-- What is scanned for a piece of a split is its text, on its line. -/
theorem Shape.of_token?_eq_some (h : Shape form text rest) {line : Nat} {t : Token}
    (ht : Piece.token? line ⟨form, text⟩ = some t) :
    t.lexeme.toList = text ∧ t.line = line ∧ t.isEof = false := by
  rcases h.reads_or_faulty_or_silent with ⟨kind, literal, hreads⟩ | ⟨fault, hfault⟩ | hsilent
  · obtain rfl := Option.some.inj ((hreads.token?_eq line).symm.trans ht)
    exact ⟨String.toList_ofList, rfl, hreads.not_eof⟩
  · cases (Piece.error?_of_faulty (p := ⟨form, text⟩) hfault line).1.symm.trans ht
  · cases (Piece.nothing_of_silent (p := ⟨form, text⟩) hsilent line).1.symm.trans ht

/-- What is reported for a piece of a split is its fault, on its line. -/
theorem Shape.of_error?_eq_some (h : Shape form text rest) {line : Nat} {e : ScanError}
    (he : Piece.error? line ⟨form, text⟩ = some e) : form.Faulty e.fault ∧ e.line = line := by
  rcases h.reads_or_faulty_or_silent with ⟨kind, literal, hreads⟩ | ⟨fault, hfault⟩ | hsilent
  · cases (hreads.error?_eq line).symm.trans he
  · have herror := (Piece.error?_of_faulty (p := ⟨form, text⟩) hfault line).2
    obtain rfl := Option.some.inj (herror.symm.trans he)
    exact ⟨hfault, rfl⟩
  · cases (Piece.nothing_of_silent (p := ⟨form, text⟩) hsilent line).2.symm.trans he

/-- Each token ends at its place. -/
theorem endsAt_of_mem_tokenEndings {source : String} :
    ∀ x ∈ tokenEndings source, x.1.EndsAt source x.2 := by
  intro x hx
  rcases List.mem_append.mp hx with hx | hx
  · obtain ⟨s, ht, hstop, after, hsource, hshape⟩ := exists_of_mem_endings hx
    obtain ⟨htext, hline, hnot⟩ := hshape.of_token?_eq_some ht
    refine ⟨s.before, after, by rw [htext, hsource], ?_, hline, fun heof => ?_⟩
    · rw [hstop, htext, List.length_append]
      rfl
    · cases hnot.symm.trans heof
  · obtain rfl := List.mem_singleton.mp hx
    refine ⟨source.toList, [], ?_, ?_, rfl, fun _ => rfl⟩
    · rw [List.append_nil]
      exact (List.append_nil _).symm
    · show source.length = (source.toList ++ []).length
      rw [List.append_nil, String.length_toList]

/-- Each error ends at its place. -/
theorem endsAt_of_mem_errorEndings {source : String} :
    ∀ x ∈ errorEndings source, x.1.EndsAt source x.2 := by
  intro x hx
  obtain ⟨s, he, hstop, after, hsource, hshape⟩ := exists_of_mem_endings hx
  obtain ⟨hfaulty, hline⟩ := hshape.of_error?_eq_some he
  refine ⟨s.before, _, _, after, hsource, hshape, hfaulty, ?_, hline⟩
  rw [hstop, List.length_append]
  rfl

/-- The tokens end in their order. -/
theorem pairwise_tokenEndings (source : String) :
    (tokenEndings source).Pairwise fun x y => x.2 ≤ y.2 := by
  refine List.pairwise_append.mpr ⟨pairwise_endings _ source, List.pairwise_singleton _ _, ?_⟩
  intro x hx y hy
  obtain rfl := List.mem_singleton.mp hy
  obtain ⟨before, after, hsource, hstop, -⟩ :=
    endsAt_of_mem_tokenEndings x (List.mem_append_left _ hx)
  show x.2 ≤ source.length
  rw [← String.length_toList, hsource, List.length_append, hstop]
  exact Nat.le_add_right _ _

/-! ## Scans -/

/-- A source that ends where two sources are still alike is both of them. -/
theorem eq_of_take_eq {s t : String} {n : Nat} (hn : s.length < n)
    (hsame : s.toList.take n = t.toList.take n) : s = t := by
  have hs : s.toList.length < n := by rwa [String.length_toList]
  rw [List.take_of_length_le (Nat.le_of_lt hs)] at hsame
  have ht : t.toList.length ≤ n := by
    have hlength := congrArg List.length hsame
    rw [List.length_take] at hlength
    omega
  rw [List.take_of_length_le ht] at hsame
  exact String.toList_inj.mp hsame

/-- The tokens that two sources settle alike, the end of input included. -/
theorem settled_tokenEndings {s t : String} {n : Nat} (hsame : s.toList.take n = t.toList.take n) :
    (tokenEndings s).filter (fun x => x.2 + 2 ≤ n)
      = (tokenEndings t).filter fun x => x.2 + 2 ≤ n := by
  by_cases hs : s.length + 2 ≤ n
  · rw [eq_of_take_eq (by omega) hsame]
  by_cases ht : t.length + 2 ≤ n
  · rw [eq_of_take_eq (by omega) hsame.symm]
  -- neither end of input is settled
  have hnone : ∀ source : String, ¬ source.length + 2 ≤ n →
      [(Token.endOn (lastLine source.toList), source.length)].filter (fun x => x.2 + 2 ≤ n) = [] := by
    intro source hsource
    exact List.filter_eq_nil_iff.mpr fun x hx => by simpa [List.mem_singleton.mp hx] using hsource
  rw [tokenEndings, tokenEndings, List.filter_append, List.filter_append, settled_endings _ hsame,
    hnone s hs, hnone t ht]

/-- **Scanning looks ahead at two characters, and nothing that is settled is revised.**  The tokens
    and errors of every scan end at places of the source, in their order, and the end of input behind
    all of it.  If two sources share their first `n` characters, then the tokens that end two characters
    before that place are the same, in the same order, and so are the errors. -/
theorem scan_settled :
    (∀ source,
      (tokenEndings source).map Prod.fst = (scan source).tokens ∧
      (errorEndings source).map Prod.fst = (scan source).errors ∧
      (∀ x ∈ tokenEndings source, x.1.EndsAt source x.2) ∧
      (∀ x ∈ errorEndings source, x.1.EndsAt source x.2) ∧
      ((tokenEndings source).Pairwise fun x y => x.2 ≤ y.2) ∧
      (errorEndings source).Pairwise fun x y => x.2 ≤ y.2) ∧
    ∀ (s t : String) (n : Nat), s.toList.take n = t.toList.take n →
      (tokenEndings s).filter (fun x => x.2 + 2 ≤ n)
          = (tokenEndings t).filter (fun x => x.2 + 2 ≤ n) ∧
        (errorEndings s).filter (fun x => x.2 + 2 ≤ n)
          = (errorEndings t).filter fun x => x.2 + 2 ≤ n := by
  constructor
  · intro source
    exact ⟨map_fst_tokenEndings source, map_fst_errorEndings source, endsAt_of_mem_tokenEndings,
      endsAt_of_mem_errorEndings, pairwise_tokenEndings source, pairwise_endings _ source⟩
  · intro s t n hsame
    exact ⟨settled_tokenEndings hsame, settled_endings _ hsame⟩

/-- The sources part behind the point: the string and the stray character are settled.  The `7` ends
    one character before the point does, and is a number in one source only. -/
theorem scan_settled_before_fraction :
    let s := "\"ok\" @7.x"
    let t := "\"ok\" @7.5 \"open"
    s.toList.take 8 = t.toList.take 8 ∧
      ((tokenEndings t).filter fun x => x.2 + 2 ≤ 8).map (fun x => (x.1.lexeme, x.2))
        = [("\"ok\"", 4)] ∧
      (errorEndings t).filter (fun x => x.2 + 2 ≤ 8) = [(⟨.strayCharacter '@', 1⟩, 6)] ∧
      (tokenEndings s).filter (fun x => x.2 + 1 ≤ 8)
        ≠ (tokenEndings t).filter fun x => x.2 + 1 ≤ 8 := by
  intro s t
  have hsame : s.toList.take 8 = t.toList.take 8 := by decide +kernel
  obtain ⟨htokens, herrors⟩ := scan_settled.2 s t 8 hsame
  refine ⟨hsame, ?_, ?_, by decide +kernel⟩
  · rw [← htokens]
    decide +kernel
  · rw [← herrors]
    decide +kernel

end Lox
