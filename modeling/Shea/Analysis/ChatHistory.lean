import Shea.Analysis.JsonRoundTrip
import Shea.Model.ChatHistory
import Shea.Model.Sample

/-!
# What the history gives back

A text is stored as it is, and an object as its JSON. Reading gives both to `json.loads`, so a text that is
JSON comes back as what it stands for: something else than a text, or a shorter one, since the text of a
string in JSON has quotation marks. So the texts that come back are in all no longer than those that were
saved, and as long just when none of them is JSON.
-/

set_option autoImplicit false

namespace Shea.Analysis

open Shea.Model Shea.Model.SqliteChatRepository

/-! ## Contents and lengths -/

/-- What is read is the content: the same text, or an object with the same entries. -/
inductive ReadsAs : ChatContent → Value → Prop
  | text (text : String) : ReadsAs (.text text) (.str text)
  | object {entries read : Dict} (h : (Value.dict read).canon = (Value.dict entries).canon) :
      ReadsAs (.object entries) (.dict read)

/-- Contents that are the same. -/
inductive EqualContent : ChatContent → ChatContent → Prop
  | text (text : String) : EqualContent (.text text) (.text text)
  | object {entries others : Dict} (h : (Value.dict others).canon = (Value.dict entries).canon) :
      EqualContent (.object entries) (.object others)

/-- It is a text, or an object that has each key once at every depth. -/
def WellFormedContent : ChatContent → Prop
  | .text _ => True
  | .object entries => (Value.dict entries).distinctKeys = true

/-- `json.loads` reads what `json.dumps` writes of an object, and the text of a string in JSON is longer
than the string. -/
structure LoadsBack (py : Stdlib) (loads : String → LoadsOutcome) : Prop where
  loads_dumps : ∀ entries text, (Value.dict entries).distinctKeys = true →
    jsonDumps py (.dict entries) = some text →
    ∃ read, loads text = .value (.dict read) ∧ (Value.dict read).canon = (Value.dict entries).canon
  longer : ∀ text read, loads text = .value (.str read) → read.length < text.length

/-- `json.loads` refuses the texts among the contents. -/
def RefusedTexts (loads : String → LoadsOutcome) (contents : List ChatContent) : Prop :=
  ∀ text, ChatContent.text text ∈ contents → loads text = .jsonDecodeError

/-- The length of a text, with its end; an object counts for nothing. -/
def contentWeight : ChatContent → ℕ
  | .text text => text.length + 1
  | .object _ => 0

/-- The same of what is read. -/
def valueWeight : Value → ℕ
  | .str text => text.length + 1
  | _ => 0

/-- What is read back weighs what was written. -/
theorem ReadsAs.weight {content : ChatContent} {value : Value} (h : ReadsAs content value) :
    valueWeight value = contentWeight content := by
  cases h <;> rfl

section Read

variable {py : Stdlib} {loads : String → LoadsOutcome} (hloads : LoadsBack py loads)

/-- The stored text of a content. -/
def Stores (py : Stdlib) (content : ChatContent) (stored : String) : Prop :=
  WellFormedContent content ∧ contentStr py content = some stored

include hloads

/-- INTERNAL: an object is read as itself.
SOURCE: persistence/sqlite/chat_repository.py:25, persistence/sqlite/chat_repository.py:47-50 -/
theorem read_object {entries : Dict} {stored : String} (h : Stores py (.object entries) stored)
    {value : Value} (hread : historyContent loads stored = .ok value) :
    ReadsAs (.object entries) value := by
  obtain ⟨read, hvalue, hcanon⟩ := hloads.loads_dumps entries stored h.1 h.2
  unfold historyContent at hread
  rw [hvalue] at hread
  obtain rfl := Except.ok.inj hread
  exact .object hcanon

/-- INTERNAL: what is read is no longer than what was saved, and as long only if it is the same.
SOURCE: persistence/sqlite/chat_repository.py:47-50 -/
theorem read_weight {content : ChatContent} {stored : String} (h : Stores py content stored)
    {value : Value} (hread : historyContent loads stored = .ok value) :
    valueWeight value ≤ contentWeight content ∧ (valueWeight value = contentWeight content →
      ∀ text, content = .text text → loads text = .jsonDecodeError) := by
  cases content with
  | object entries =>
    exact ⟨le_of_eq (read_object hloads h hread).weight, fun _ text heq => by cases heq⟩
  | text text =>
    obtain rfl : text = stored := Option.some.inj h.2
    have hshorter : ∀ value, loads text = .value value → valueWeight value < text.length + 1 := by
      intro value hvalue
      cases value with
      | str read => exact Nat.succ_lt_succ (hloads.longer text read hvalue)
      | _ => exact Nat.succ_pos _
    unfold historyContent at hread
    split at hread
    · next read hvalue =>
      obtain rfl := Except.ok.inj hread
      have hlt : valueWeight read < contentWeight (.text text) := hshorter read hvalue
      exact ⟨Nat.le_of_lt hlt, fun heq => absurd heq (Nat.ne_of_lt hlt)⟩
    · next hrefused =>
      obtain rfl := Except.ok.inj hread
      refine ⟨le_rfl, fun _ other heq => ?_⟩
      cases heq
      exact hrefused
    · cases hread

/-- INTERNAL: a content that is no JSON text is read as itself. -/
theorem read_same {content : ChatContent} {stored : String} (h : Stores py content stored)
    (hrefused : ∀ text, content = .text text → loads text = .jsonDecodeError) :
    ∃ value, historyContent loads stored = .ok value ∧ ReadsAs content value := by
  cases content with
  | object entries =>
    obtain ⟨read, hvalue, hcanon⟩ := hloads.loads_dumps entries stored h.1 h.2
    refine ⟨.dict read, ?_, .object hcanon⟩
    unfold historyContent
    rw [hvalue]
  | text text =>
    obtain rfl : text = stored := Option.some.inj h.2
    refine ⟨.str text, ?_, .text text⟩
    unfold historyContent
    rw [hrefused text rfl]

end Read

/-! ## Rows and lists side by side -/

/-- INTERNAL: the row that an event is saved as.
SOURCE: persistence/sqlite/chat_repository.py:24-32 -/
def SavedAs (py : Stdlib) (event : ChatEvent) (row : ChatRow) : Prop :=
  Stores py event.content row.content ∧ row.sessionId = event.sessionId ∧ row.createdAt = event.createdAt

/-- INTERNAL: the events and the rows they are saved as, behind those that were there.
SOURCE: persistence/sqlite/chat_repository.py:24-32 -/
theorem saveEvents_rows {py : Stdlib} {table rows : List ChatRow} {events : List ChatEvent}
    (hcontents : ∀ event ∈ events, WellFormedContent event.content)
    (h : saveEvents py table events = .ok rows) :
    ∃ saved : List (ChatEvent × ChatRow), saved.map Prod.fst = events ∧
      rows = table ++ saved.map Prod.snd ∧ ∀ pair ∈ saved, SavedAs py pair.1 pair.2 := by
  induction events generalizing table with
  | nil => exact ⟨[], rfl, by rw [← Except.ok.inj h]; exact (List.append_nil _).symm, by simp⟩
  | cons event events ih =>
    unfold saveEvents at h
    split at h
    · next more hsave =>
      obtain ⟨saved, hevents, hrows, hpairs⟩ := ih (fun e he => hcontents e (List.mem_cons_of_mem _ he)) h
      unfold saveEvent at hsave
      split at hsave
      · cases hsave
      · next text htext =>
        split at hsave
        · cases hsave
        · obtain rfl := Except.ok.inj hsave
          refine ⟨(event, _) :: saved, by rw [List.map_cons, hevents],
            by rw [hrows, List.append_assoc]; rfl, fun pair hpair => ?_⟩
          rcases List.mem_cons.mp hpair with rfl | hpair
          · exact ⟨⟨hcontents _ (List.mem_cons_self ..), htext⟩, rfl, rfl⟩
          · exact hpairs pair hpair
    · cases h

section SideBySide

variable {α β γ : Type}

/-- INTERNAL: two relations between lists, one after the other. -/
theorem forall₂_trans {r : α → β → Prop} {s : β → γ → Prop} {t : α → γ → Prop} {as : List α}
    {bs : List β} {cs : List γ} (hr : List.Forall₂ r as bs) (hs : List.Forall₂ s bs cs)
    (h : ∀ a b c, r a b → s b c → t a c) : List.Forall₂ t as cs := by
  induction hr generalizing cs with
  | nil => cases hs with
    | nil => exact .nil
  | cons hab _ ih => cases hs with
    | cons hbc hrest => exact .cons (h _ _ _ hab hbc) (ih hrest)

/-- INTERNAL: members side by side have weights of one order, so the sums tell whether they are equal. -/
theorem forall₂_sum_le {r : α → β → Prop} {f : α → ℕ} {g : β → ℕ} {as : List α} {bs : List β}
    (h : List.Forall₂ r as bs) (hle : ∀ a ∈ as, ∀ b, r a b → g b ≤ f a) :
    (bs.map g).sum ≤ (as.map f).sum ∧
      ((as.map f).sum ≤ (bs.map g).sum → ∀ a ∈ as, ∃ b, r a b ∧ g b = f a) := by
  induction h with
  | nil => exact ⟨le_rfl, fun _ a ha => absurd ha List.not_mem_nil⟩
  | @cons a b as bs hab _ ih =>
    obtain ⟨hsum, hall⟩ := ih fun a' ha' => hle a' (List.mem_cons_of_mem _ ha')
    have hfirst := hle a (List.mem_cons_self ..) b hab
    simp only [List.map_cons, List.sum_cons]
    refine ⟨Nat.add_le_add hfirst hsum, fun hge a' ha' => ?_⟩
    rcases List.mem_cons.mp ha' with rfl | ha'
    · exact ⟨b, hab, by omega⟩
    · exact hall (by omega) a' ha'

/-- INTERNAL: the results of a function that may raise, side by side with its arguments. -/
theorem mapM_eq_ok_iff {ε : Type} {f : α → Except ε β} {as : List α} {bs : List β} :
    as.mapM f = .ok bs ↔ List.Forall₂ (fun a b => f a = .ok b) as bs := by
  induction as generalizing bs with
  | nil =>
    rw [List.mapM_nil, List.forall₂_nil_left_iff]
    exact ⟨fun h => (Except.ok.inj h).symm, fun h => h ▸ rfl⟩
  | cons a as ih =>
    rw [List.mapM_cons]
    cases ha : f a with
    | error e =>
      constructor
      · intro h
        cases h
      · intro h
        cases h with
        | cons hab _ => cases ha.symm.trans hab
    | ok b =>
      cases hrest : as.mapM f with
      | error e =>
        constructor
        · intro h
          cases h
        · intro h
          cases h with
          | cons _ hbs => cases hrest.symm.trans (ih.mpr hbs)
      | ok bs' =>
        constructor
        · intro h
          obtain rfl := Except.ok.inj h
          exact .cons ha (ih.mp hrest)
        · intro h
          cases h with
          | cons hab hbs =>
            obtain rfl := Except.ok.inj (ha.symm.trans hab)
            obtain rfl := Except.ok.inj (hrest.symm.trans (ih.mpr hbs))
            rfl

end SideBySide

/-! ## The history -/

/-- The contents of a session, in the order they were saved. -/
def contentsOf (sessionId : String) (events : List ChatEvent) : List ChatContent :=
  (events.filter (·.sessionId = sessionId)).map ChatEvent.content

/-- The same contents in the order of `created_at`; what it does not tell apart stays as it was saved. -/
def contentsByTime (timeLe : String → String → Bool) (sessionId : String) (events : List ChatEvent) :
    List ChatContent :=
  ((events.filter (·.sessionId = sessionId)).insertionSort fun a b => timeLe a.createdAt b.createdAt).map
    ChatEvent.content

/-- INTERNAL: events of a session that were created in the order they were saved. -/
theorem contentsByTime_of_pairwise {timeLe : String → String → Bool} {sessionId : String}
    {events : List ChatEvent} (h : (events.filter (·.sessionId = sessionId)).Pairwise
      fun a b => timeLe a.createdAt b.createdAt = true) :
    contentsByTime timeLe sessionId events = contentsOf sessionId events := by
  unfold contentsByTime contentsOf
  rw [List.Pairwise.insertionSort_eq h]

section History

variable {py : Stdlib} {loads : String → LoadsOutcome} {timeLe : String → String → Bool}
variable {table rows : List ChatRow} {events : List ChatEvent} {sessionId : String}

/-- INTERNAL: the events of the session in the order of `created_at`, with their rows. Their contents
are the contents of the session, and the rows are what the query returns.
SOURCE: persistence/sqlite/chat_repository.py:34-42 -/
theorem exists_sorted (timeLe : String → String → Bool) (hfresh : ∀ row ∈ table, row.sessionId ≠ sessionId)
    (hcontents : ∀ event ∈ events, WellFormedContent event.content)
    (hsaved : saveEvents py table events = .ok rows) :
    ∃ sorted : List (ChatEvent × ChatRow),
      (∀ pair ∈ sorted, Stores py pair.1.content pair.2.content) ∧
      sessionRows timeLe rows sessionId = sorted.map Prod.snd ∧
      (sorted.map fun pair => pair.1.content) = contentsByTime timeLe sessionId events := by
  obtain ⟨saved, hevents, rfl, hpairs⟩ := saveEvents_rows hcontents hsaved
  have hnone : table.filter (·.sessionId = sessionId) = [] :=
    List.filter_eq_nil_iff.mpr fun row hrow => by simpa using hfresh row hrow
  have hrows : (saved.map Prod.snd).filter (·.sessionId = sessionId) =
      (saved.filter (·.1.sessionId = sessionId)).map Prod.snd := by
    rw [List.filter_map]
    refine congrArg _ (List.filter_congr fun pair hpair => ?_)
    exact congrArg (fun s => decide (s = sessionId)) (hpairs pair hpair).2.1
  have hof : events.filter (·.sessionId = sessionId) =
      (saved.filter (·.1.sessionId = sessionId)).map Prod.fst := by
    rw [← hevents, List.filter_map]
    rfl
  refine ⟨(saved.filter (·.1.sessionId = sessionId)).insertionSort
    fun a b => timeLe a.1.createdAt b.1.createdAt, fun pair hpair => ?_, ?_, ?_⟩
  · exact (hpairs pair (List.mem_of_mem_filter ((List.mem_insertionSort _).mp hpair))).1
  · unfold sessionRows
    rw [List.filter_append, hnone, List.nil_append, hrows]
    refine (List.map_insertionSort _ _ Prod.snd _ fun a ha b hb => ?_).symm
    rw [(hpairs a (List.mem_of_mem_filter ha)).2.2, (hpairs b (List.mem_of_mem_filter hb)).2.2]
  · unfold contentsByTime
    rw [hof, ← List.map_insertionSort (fun a b => timeLe a.1.createdAt b.1.createdAt) _ Prod.fst _
      fun a _ b _ => Iff.rfl, List.map_map]
    rfl

/-- INTERNAL: the contents that a history has, if there is one, are those read row by row.
SOURCE: persistence/sqlite/chat_repository.py:44-59 -/
theorem getHistory_iff {values : List Value} :
    (∃ history, getHistory loads timeLe rows sessionId = .ok history ∧
        history.map HistoryEntry.content = values) ↔
      List.Forall₂ (fun row value => historyContent loads row.content = .ok value)
        (sessionRows timeLe rows sessionId) values := by
  unfold getHistory
  simp only [mapM_eq_ok_iff]
  constructor
  · rintro ⟨history, hentries, rfl⟩
    rw [List.forall₂_map_right_iff]
    refine hentries.imp fun row entry hentry => ?_
    unfold historyEntry at hentry
    cases hcontent : historyContent loads row.content with
    | error e =>
      rw [hcontent] at hentry
      cases hentry
    | ok value =>
      rw [hcontent] at hentry
      obtain rfl := Except.ok.inj hentry
      rfl
  · generalize sessionRows timeLe rows sessionId = found
    intro h
    induction h with
    | nil => exact ⟨[], .nil, rfl⟩
    | @cons row value _ values hcontent _ ih =>
      obtain ⟨history, hentries, rfl⟩ := ih
      refine ⟨⟨row.id, row.source, row.eventType, value, row.createdAt⟩ :: history, .cons ?_ hentries, rfl⟩
      unfold historyEntry
      rw [hcontent]
      rfl

/-- INTERNAL: a history with the contents of the session has read no text as JSON.
SOURCE: persistence/sqlite/chat_repository.py:47-50 -/
theorem refused_of_history (hloads : LoadsBack py loads) {sorted : List (ChatEvent × ChatRow)}
    (hstores : ∀ pair ∈ sorted, Stores py pair.1.content pair.2.content) {contents : List ChatContent}
    (hperm : (sorted.map fun pair => pair.1.content).Perm contents) {values : List Value}
    (hread : List.Forall₂ (fun pair value => historyContent loads pair.2.content = .ok value) sorted values)
    (hsame : List.Forall₂ ReadsAs contents values) : RefusedTexts loads contents := by
  have hweights : values.map valueWeight = contents.map contentWeight := by
    rw [← List.forall₂_eq_eq_eq, List.forall₂_map_left_iff, List.forall₂_map_right_iff]
    exact hsame.flip.imp fun value content h => ReadsAs.weight h
  have hsum : (sorted.map fun pair => contentWeight pair.1.content).sum = (values.map valueWeight).sum := by
    have hsums := (hperm.map contentWeight).sum_eq
    rwa [List.map_map, ← hweights] at hsums
  have hall := (forall₂_sum_le hread fun pair hpair value hvalue =>
    (read_weight hloads (hstores pair hpair) hvalue).1).2 (le_of_eq hsum)
  intro text htext
  obtain ⟨pair, hpair, hcontent⟩ := List.mem_map.mp (hperm.mem_iff.mpr htext)
  obtain ⟨value, hvalue, hweight⟩ := hall pair hpair
  exact (read_weight hloads (hstores pair hpair) hvalue).2 hweight text hcontent

/-- INTERNAL: texts that are no JSON are read back, and so are objects.
SOURCE: persistence/sqlite/chat_repository.py:47-50 -/
theorem exists_read_of_refused (hloads : LoadsBack py loads) {sorted : List (ChatEvent × ChatRow)}
    (hstores : ∀ pair ∈ sorted, Stores py pair.1.content pair.2.content)
    (hrefused : RefusedTexts loads (sorted.map fun pair => pair.1.content)) :
    ∃ values, List.Forall₂ (fun pair value => historyContent loads pair.2.content = .ok value) sorted values ∧
      List.Forall₂ ReadsAs (sorted.map fun pair => pair.1.content) values := by
  induction sorted with
  | nil => exact ⟨[], .nil, .nil⟩
  | cons pair sorted ih =>
    obtain ⟨values, hread, hsame⟩ := ih (fun other hother => hstores other (List.mem_cons_of_mem _ hother))
      fun text htext => hrefused text (List.mem_cons_of_mem _ htext)
    obtain ⟨value, hvalue, hcontent⟩ := read_same hloads (hstores pair (List.mem_cons_self ..))
      fun text heq => hrefused text (heq ▸ List.mem_cons_self ..)
    exact ⟨value :: values, .cons hvalue hread, .cons hcontent hsame⟩

/-- INTERNAL: contents that are read as the same are the same. -/
theorem equalContent_of_readsAs {c d : ChatContent} {value : Value} (hc : ReadsAs c value)
    (hd : ReadsAs d value) : EqualContent c d := by
  cases hc with
  | text text => cases hd with
    | text => exact .text text
  | object h => cases hd with
    | object h' => exact .object (h'.symm.trans h)

/-- INTERNAL: what is read as one content is read as an equal one. -/
theorem readsAs_of_equalContent {c d : ChatContent} {value : Value} (hcd : EqualContent c d)
    (hd : ReadsAs d value) : ReadsAs c value := by
  cases hcd with
  | text text => exact hd
  | object h => cases hd with
    | object h' => exact .object (h'.trans h)

end History

/-- After the events of a session are saved, the history has their contents, of their types, in the order
they were saved, if and only if `json.loads` refuses each text among them and `created_at` does not put
the contents in another order.
SOURCE: persistence/sqlite/chat_repository.py:15-60 -/
theorem history_returns_iff {py : Stdlib} {loads : String → LoadsOutcome} (hloads : LoadsBack py loads)
    (timeLe : String → String → Bool) {table rows : List ChatRow} {events : List ChatEvent}
    {sessionId : String} (hfresh : ∀ row ∈ table, row.sessionId ≠ sessionId)
    (hcontents : ∀ event ∈ events, WellFormedContent event.content)
    (hsaved : saveEvents py table events = .ok rows) :
    (∃ history, getHistory loads timeLe rows sessionId = .ok history ∧
        List.Forall₂ ReadsAs (contentsOf sessionId events) (history.map HistoryEntry.content)) ↔
      RefusedTexts loads (contentsOf sessionId events) ∧
        List.Forall₂ EqualContent (contentsOf sessionId events)
          (contentsByTime timeLe sessionId events) := by
  obtain ⟨sorted, hstores, hrows, hbytime⟩ := exists_sorted timeLe hfresh hcontents hsaved
  have hperm : (sorted.map fun pair => pair.1.content).Perm (contentsOf sessionId events) := by
    rw [hbytime]
    exact (List.perm_insertionSort _ _).map ChatEvent.content
  have hvalues {values : List Value} : (∃ history, getHistory loads timeLe rows sessionId = .ok history ∧
      history.map HistoryEntry.content = values) ↔
      List.Forall₂ (fun pair value => historyContent loads pair.2.content = .ok value) sorted values := by
    rw [getHistory_iff, hrows, List.forall₂_map_left_iff]
  have hback (hrefused : RefusedTexts loads (contentsOf sessionId events)) :=
    exists_read_of_refused hloads hstores fun text htext => hrefused text (hperm.mem_iff.mp htext)
  rw [← hbytime]
  constructor
  · rintro ⟨history, hhistory, hsame⟩
    have hread := hvalues.mp ⟨history, hhistory, rfl⟩
    have hrefused := refused_of_history hloads hstores hperm hread hsame
    refine ⟨hrefused, ?_⟩
    obtain ⟨values, hread', hsame'⟩ := hback hrefused
    obtain rfl : history.map HistoryEntry.content = values := by
      rw [← List.forall₂_eq_eq_eq]
      exact forall₂_trans hread.flip hread' fun value pair value' h h' => Except.ok.inj (h.symm.trans h')
    exact forall₂_trans hsame hsame'.flip fun c value d hc hd => equalContent_of_readsAs hc hd
  · rintro ⟨hrefused, hequal⟩
    obtain ⟨values, hread, hsame⟩ := hback hrefused
    obtain ⟨history, hhistory, rfl⟩ := hvalues.mpr hread
    exact ⟨history, hhistory, forall₂_trans hequal hsame fun c d value hcd hd => readsAs_of_equalContent hcd hd⟩

/-! ## A reader -/

/-- INTERNAL: a character takes at least one letter. -/
theorem scanChar_length {s rest : List Char} {c : Char} (h : scanChar s = some (c, rest)) :
    rest.length < s.length := by
  unfold scanChar at h
  split at h
  · next a b c' d s =>
    obtain ⟨high, -, h⟩ := Option.bind_eq_some_iff.mp h
    split at h
    · split at h
      · next a b c' d s =>
        obtain ⟨low, -, h⟩ := Option.bind_eq_some_iff.mp h
        split at h
        · obtain ⟨-, rfl⟩ := Prod.mk.inj (Option.some.inj h)
          simp only [List.length_cons]
          omega
        · cases h
      · cases h
    · split at h
      · cases h
      · obtain ⟨-, rfl⟩ := Prod.mk.inj (Option.some.inj h)
        simp only [List.length_cons]
        omega
  · obtain ⟨written, -, h⟩ := Option.map_eq_some_iff.mp h
    cases h
    simp only [List.length_cons]
    omega
  · split at h
    · cases h
    · cases h
      simp
  · cases h

/-- INTERNAL: a string takes more letters than it has, with the quotation mark at its end. -/
theorem scanString_length {fuel : ℕ} {s text rest : List Char} (h : scanString fuel s = some (text, rest)) :
    text.length < s.length := by
  induction fuel generalizing s text rest with
  | zero => cases h
  | succ fuel ih =>
    unfold scanString at h
    split at h
    · cases h
      exact Nat.succ_pos _
    · obtain ⟨⟨c, more⟩, hchar, h⟩ := Option.bind_eq_some_iff.mp h
      obtain ⟨⟨text', rest'⟩, hrest, h⟩ := Option.bind_eq_some_iff.mp h
      cases h
      have hshorter := scanChar_length hchar
      have hlength := ih hrest
      rw [List.length_cons]
      omega

/-- INTERNAL: what does not begin as a string, a list or a dictionary is read as a number or a word. -/
theorem scanBare_kind {floatOf : String → PyFloat} {s rest : List Char} {value : Value}
    (h : scanBare floatOf s = some (value, rest)) : kind value = .bare ∧ value.Direct := by
  unfold scanBare at h
  split at h <;> try (cases h; exact ⟨rfl, trivial⟩)
  unfold scanNumber at h
  split at h <;> unfold scanUnsigned at h
  all_goals
    obtain ⟨⟨whole, s⟩, -, h⟩ := Option.bind_eq_some_iff.mp h
    dsimp only at h
    split at h
    · obtain ⟨value, hvalue, h⟩ := Option.bind_eq_some_iff.mp h
      unfold intOfDigits at hvalue
      split at hvalue
      · cases hvalue
        cases h
        exact ⟨rfl, trivial⟩
      · cases hvalue
    · cases h
      exact ⟨rfl, trivial⟩

/-- INTERNAL: nothing that is read is an object. -/
theorem scanOnce_direct {floatOf : String → PyFloat} {fuel : ℕ} {s rest : List Char} {value : Value}
    (h : scanOnce floatOf fuel s = some (value, rest)) : value.Direct := by
  cases fuel with
  | zero => cases h
  | succ fuel =>
    unfold scanOnce at h
    split at h
    · obtain ⟨_, -, h⟩ := Option.bind_eq_some_iff.mp h
      cases h
      trivial
    · split at h
      · cases h
        trivial
      · obtain ⟨_, -, h⟩ := Option.bind_eq_some_iff.mp h
        cases h
        trivial
    · split at h
      · cases h
        trivial
      · obtain ⟨_, -, h⟩ := Option.bind_eq_some_iff.mp h
        cases h
        trivial
    · exact (scanBare_kind h).2

/-- INTERNAL: `json.loads` makes no object. -/
theorem jsonLoads_direct {floatOf : String → PyFloat} {text : String} {value : Value}
    (h : jsonLoads floatOf text = some value) : value.Direct := by
  unfold jsonLoads at h
  split at h
  · cases h
  · obtain ⟨⟨read, rest⟩, hscan, h⟩ := Option.bind_eq_some_iff.mp h
    dsimp only at h
    split at h
    · obtain rfl := Option.some.inj h
      exact scanOnce_direct hscan
    · cases h

/-- A string is shorter than its text. -/
theorem jsonLoads_str_length {floatOf : String → PyFloat} {text read : String}
    (h : jsonLoads floatOf text = some (.str read)) : read.length < text.length := by
  unfold jsonLoads at h
  split at h
  · cases h
  · obtain ⟨⟨value, rest⟩, hscan, h⟩ := Option.bind_eq_some_iff.mp h
    dsimp only at h
    split at h
    · obtain rfl := Option.some.inj h
      have hskip : (skipSpace text.toList).length ≤ text.length := by
        rw [← String.length_toList]
        exact (List.dropWhile_suffix _).length_le
      refine Nat.lt_of_lt_of_le ?_ hskip
      unfold scanOnce at hscan
      split at hscan
      · next more heq =>
        obtain ⟨⟨letters, rest'⟩, hstring, hscan⟩ := Option.bind_eq_some_iff.mp hscan
        cases hscan
        have hlength := scanString_length hstring
        rw [heq, String.length_ofList, List.length_cons]
        omega
      · split at hscan
        · cases hscan
        · obtain ⟨⟨items, rest'⟩, -, hscan⟩ := Option.bind_eq_some_iff.mp hscan
          cases hscan
      · split at hscan
        · cases hscan
        · obtain ⟨⟨entries, rest'⟩, -, hscan⟩ := Option.bind_eq_some_iff.mp hscan
          cases hscan
      · cases (scanBare_kind hscan).1
    · cases h

/-- The reader of `json.loads`, for texts on which it raises nothing but a `JSONDecodeError`. -/
def readerLoads (text : String) : LoadsOutcome :=
  match jsonLoads floatOfText text with
  | some value => .value value
  | none => .jsonDecodeError

/-- INTERNAL: the reader of the sample satisfies the assumption on `json.loads`. -/
theorem loadsBack_reader (py : Stdlib) : LoadsBack { py with floatRepr := floatText } readerLoads where
  loads_dumps entries text hkeys htext := by
    obtain ⟨other, hloads, hcanon⟩ := jsonLoads_jsonDumps (floatsReadBack_floatText py) hkeys htext
    have hdirect := jsonLoads_direct hloads
    cases other with
    | dict read =>
      refine ⟨read, ?_, hcanon⟩
      unfold readerLoads
      rw [hloads]
    | other _ _ written =>
      cases written with
      | none => cases hcanon
      | some _ => exact hdirect.elim
    | _ => cases hcanon
  longer text read hread := by
    unfold readerLoads at hread
    split at hread
    · next value hvalue =>
      cases hread
      exact jsonLoads_str_length hvalue
    · cases hread

/-- A library whose floats are read back. -/
def chatPy : Stdlib := { Stdlib.plain with floatRepr := floatText }

/-- A message of a session. -/
def messageEvent (eventId : String) (content : ChatContent) : ChatEvent :=
  { eventId := eventId
    sessionId := "session"
    source := "user"
    eventType := "message"
    content := content
    createdAt := "2026-01-01T00:00:00+00:00" }

/-- The row of a message. -/
def messageRow (id content : String) : ChatRow :=
  { id := id
    sessionId := "session"
    source := "user"
    eventType := "message"
    content := content
    createdAt := "2026-01-01T00:00:00+00:00" }

/-- Time stamps in the order of their letters. -/
def textLe (a b : String) : Bool := a ≤ b

/-- A greeting and an object come back. -/
theorem greeting_and_object_returned :
    ∃ history, getHistory readerLoads textLe
        [messageRow "1" "hello", messageRow "2" "\x7b\"a\": 1\x7d"] "session" = .ok history ∧
      List.Forall₂ ReadsAs [.text "hello", .object [("a", .int 1)]]
        (history.map HistoryEntry.content) := by
  have hobject : jsonDumps chatPy (.dict [("a", .int 1)]) = some "\x7b\"a\": 1\x7d" := by decide +kernel
  have hsaved : saveEvents chatPy []
      [messageEvent "1" (.text "hello"), messageEvent "2" (.object [("a", .int 1)])] =
      .ok [messageRow "1" "hello", messageRow "2" "\x7b\"a\": 1\x7d"] := by
    simp [saveEvents, saveEvent, contentStr, messageEvent, messageRow, hobject]
  have hrefused : readerLoads "hello" = .jsonDecodeError := by
    have hnone : jsonLoads floatOfText "hello" = none := by decide +kernel
    unfold readerLoads
    rw [hnone]
  have hcontents : ∀ event ∈ [messageEvent "1" (.text "hello"), messageEvent "2" (.object [("a", .int 1)])],
      WellFormedContent event.content := by
    intro event hevent
    rcases List.mem_pair.mp hevent with rfl | rfl
    · trivial
    · show (Value.dict [("a", .int 1)]).distinctKeys = true
      decide
  refine (history_returns_iff (loadsBack_reader Stdlib.plain) textLe
    (fun row hrow => absurd hrow List.not_mem_nil) hcontents hsaved).mpr ⟨fun text htext => ?_, ?_⟩
  · rcases List.mem_pair.mp htext with heq | heq
    · cases heq
      exact hrefused
    · cases heq
  · rw [contentsByTime_of_pairwise (by decide)]
    exact .cons (.text "hello") (.cons (.object rfl) .nil)

/-- A text of digits comes back as a number. -/
theorem digits_not_returned :
    saveEvents chatPy [] [messageEvent "1" (.text "123")] = .ok [messageRow "1" "123"] ∧
      ¬ ∃ history, getHistory readerLoads textLe [messageRow "1" "123"] "session" = .ok history ∧
        List.Forall₂ ReadsAs [.text "123"] (history.map HistoryEntry.content) := by
  have hnumber : jsonLoads floatOfText "123" = some (.int 123) := by decide +kernel
  refine ⟨by simp [saveEvents, saveEvent, contentStr, messageEvent, messageRow], ?_⟩
  rintro ⟨history, hhistory, hsame⟩
  have hread := getHistory_iff.mp ⟨history, hhistory, rfl⟩
  have hrows : sessionRows textLe [messageRow "1" "123"] "session" = [messageRow "1" "123"] := rfl
  rw [hrows] at hread
  generalize history.map HistoryEntry.content = values at hread hsame
  cases hsame with
  | cons hcontent _ =>
    cases hread with
    | cons hvalue _ =>
      cases hcontent
      unfold historyContent readerLoads messageRow at hvalue
      rw [hnumber] at hvalue
      cases hvalue

end Shea.Analysis
