import SyncEngine.Models.SyncedMessage

/-! When a message can be created from what was downloaded, and what becomes of a message that
could not be parsed. -/
namespace SyncEngine
namespace Synced

/-- An `In-Reply-To` of nothing but whitespace has no first word. -/
def BlankReplyTo (inReplyTo : Unicode) : Prop := inReplyTo ≠ [] ∧ inReplyTo.all isSpace

instance : DecidablePred BlankReplyTo := fun inReplyTo =>
  inferInstanceAs (Decidable (inReplyTo ≠ [] ∧ inReplyTo.all isSpace))

theorem pySplit_eq_nil (s : Unicode) : pySplit s = [] ↔ s.all isSpace := by
  induction s with
  | nil => simp [pySplit]
  | cons c rest ih =>
    rw [pySplit, List.splitOnP_cons_eq_if_modifyHead]
    cases blank : isSpace c with
    | true =>
      simp only [if_true, List.filter_cons, ne_eq, not_true_eq_false, decide_false,
        Bool.false_eq_true, if_false, List.all_cons, blank, Bool.true_and]
      exact ih
    | false =>
      obtain ⟨word, words, split⟩ := List.exists_cons_of_ne_nil (List.splitOnP_ne_nil isSpace rest)
      simp [split, blank]

theorem parseReferences_raised (references inReplyTo : Unicode) :
    raised (parseReferences references inReplyTo) =
      if BlankReplyTo inReplyTo then some .indexError else none := by
  cases inReplyTo with
  | nil =>
    simp only [parseReferences, BlankReplyTo, ne_eq, not_true_eq_false, false_and, if_false]
    split <;> rfl
  | cons c rest =>
    have blank : BlankReplyTo (c :: rest) ↔ pySplit (c :: rest) = [] := by
      simp [BlankReplyTo, pySplit_eq_nil]
    cases words : pySplit (c :: rest) with
    | nil => simp [parseReferences, blank, words, raised, bind, Except.bind]
    | cons first words' =>
      simp only [parseReferences, blank, words, reduceCtorEq, if_false, List.head?_cons]
      split <;> rfl

/-! ## Headers -/

/-- The headers that hold addresses, in the order in which they are parsed. -/
def addressHeaders : List String := ["From", "Sender", "Reply-To", "To", "Cc", "Bcc"]

/-- What each helper that is applied to the headers raises, in the order of the calls. -/
def headerErrors (lib : Library) (receivedDate : Option Int) (parsed : Parsed) :
    List (Option PyError) :=
  addressHeaders.map (fun name => raised (parseMimepartAddressHeader lib parsed name)) ++
    [raised (warnMessageId lib (parsed.header "Message-Id")),
      raised (chooseReceivedDate lib parsed receivedDate),
      if BlankReplyTo ((parsed.header "In-Reply-To").getD []) then some .indexError else none]

theorem parseMetadata_raised (lib : Library) (receivedDate : Option Int) (parsed : Parsed)
    (bodyString : Bytes) (msg : SyncedMessage) :
    (assign (parseMetadata lib parsed bodyString receivedDate) msg).2 =
      (headerErrors lib receivedDate parsed).findSome? id := by
  rw [assign_raised]
  simp only [parseMetadata, headerErrors, addressHeaders, List.map_cons, List.map_nil,
    List.cons_append, List.nil_append, List.findSome?_cons, List.findSome?_nil, raised_ok,
    raised_map, parseReferences_raised, id_eq]

/-- Only an error that the handler does not know gets past it. -/
theorem readMetadata_ok (lib : Library) (receivedDate : Option Int) (bodyString : Bytes)
    (msg : SyncedMessage) (parsed : lib.fromString bodyString = .ok found) :
    (headerErrors lib receivedDate found).findSome? id = none →
      readMetadata lib receivedDate bodyString msg =
        .ok ((assign (parseMetadata lib found bodyString receivedDate) msg).1, some found) := by
  intro clean
  have ended := parseMetadata_raised lib receivedDate found bodyString msg
  rw [clean] at ended
  simp only [readMetadata, parsed]
  split
  · rename_i same
    rw [same]
  · rename_i same
    rw [same] at ended
    cases ended

theorem readMetadata_error (lib : Library) (receivedDate : Option Int) (bodyString : Bytes)
    (msg : SyncedMessage) (parsed : lib.fromString bodyString = .ok found) :
    (headerErrors lib receivedDate found).findSome? id = some e →
      readMetadata lib receivedDate bodyString msg = readMetadata.handle lib e
        (assign (parseMetadata lib found bodyString receivedDate) msg).1 := by
  intro first
  have ended := parseMetadata_raised lib receivedDate found bodyString msg
  rw [first] at ended
  simp only [readMetadata, parsed]
  split
  · rename_i same
    rw [same] at ended
    cases ended
  · rename_i same
    rw [same] at ended
    cases ended
    rw [same]

/-! ## MIME parts -/

/-- `filename[0]` is there: an extension never starts the file name. -/
theorem splitext_stem (path : Unicode) (extension : (splitext path).2 ≠ []) :
    (splitext path).1 ≠ [] := by
  unfold splitext at *
  dsimp only at *
  split at extension
  · split at extension
    · rename_i stem _ named
      rw [if_pos named]
      intro empty
      rw [List.reverse_eq_nil_iff.mp empty] at named
      cases named
    · exact absurd rfl extension
  · exact absurd rfl extension

theorem trimFilename_ok (filename : Unicode) (short : 1 < maxLen) :
    ∃ trimmed, trimFilename filename maxLen = .ok trimmed := by
  unfold trimFilename
  split
  · dsimp only
    split
    · exact ⟨_, rfl⟩
    · rename_i long
      have extension : (splitext filename).2 ≠ [] := by
        intro empty
        rw [empty, List.length_nil] at long
        omega
      obtain ⟨first, rest, stem⟩ := List.exists_cons_of_ne_nil (splitext_stem filename extension)
      exact ⟨_, by rw [stem]⟩
  · exact ⟨_, rfl⟩

theorem length_trimFilename_le (positive : 0 < maxLen)
    (trimmed : trimFilename filename maxLen = .ok name) : name.length ≤ maxLen := by
  unfold trimFilename at trimmed
  split at trimmed
  · dsimp only at trimmed
    split at trimmed
    · cases trimmed
      simp only [List.length_append, List.length_take]
      omega
    · split at trimmed
      · cases trimmed
      · cases trimmed
        simp only [List.length_cons, List.length_take]
        omega
  · cases trimmed
    omega

/-- The limits of the columns that an attachment fills, other than its content type. -/
structure Part.Trimmed (part : Part) : Prop where
  filename : ∀ name, part.block.filename = some name → name.length ≤ 255
  contentId : ∀ id, part.contentId = some id → id.length ≤ 255

theorem saveAttachment_ok (self : SyncedMessage) (data : Option Data)
    (contentDisposition contentType : Unicode) (filename contentId : Option Unicode) :
    ∃ part : Part, part.Trimmed ∧ part.block.contentType = contentType ∧
      saveAttachment self data contentDisposition contentType filename contentId =
        .ok { self with parts := self.parts ++ [part] } := by
  have short : ∀ id, contentId.map (List.take 255) = some id → id.length ≤ 255 := by
    intro id cut
    obtain ⟨whole, _, rfl⟩ := Option.map_eq_some_iff.mp cut
    exact List.length_take_le 255 whole
  cases filename with
  | none =>
    exact ⟨⟨⟨none, contentType, data.getD (.bytes [])⟩, contentId.map (List.take 255),
      contentDisposition⟩, ⟨nofun, short⟩, rfl, rfl⟩
  | some filename =>
    obtain ⟨name, trimmed⟩ := trimFilename_ok filename (show 1 < 255 by decide)
    refine ⟨⟨⟨some name, contentType, data.getD (.bytes [])⟩, contentId.map (List.take 255),
      contentDisposition⟩, ⟨?_, short⟩, rfl, ?_⟩
    · intro _ same
      cases same
      exact length_trimFilename_le (by decide) trimmed
    · simp only [saveAttachment, Option.mapM_some, trimmed]
      rfl

/-- What a MIME part is used for. -/
inductive Use where
  | skipped
  | unknown
  | attached
  | undecodable
  | html (text : Unicode)
  | plain (text : Unicode)
deriving DecidableEq, Repr

def MimePart.textUse (mimepart : MimePart) : Use :=
  match mimepart.body.map Data.encode with
  | none => .skipped
  | some (.error _) => .undecodable
  | some (.ok text) =>
    if mimepart.contentType = "text/html".toList then .html (normalizeNewlines text)
    else if mimepart.contentType = "text/plain".toList then .plain (normalizeNewlines text)
    else .attached

def MimePart.use (mimepart : MimePart) : Use :=
  if mimepart.isMultipart then .skipped
  else if mimepart.contentDisposition ∉ [none, some "inline".toList, some "attachment".toList] then
    .unknown
  else if mimepart.contentDisposition = some "attachment".toList ∨
      mimepart.contentDisposition = some "inline".toList ∧
        ¬ (mimepart.isText ∧ mimepart.filename = none ∧ mimepart.contentId = none) then .attached
  else if mimepart.isText then mimepart.textUse
  else .attached

/-- What the loop over the parts makes of one of them. -/
inductive Walked (lib : Library) (self : Parsing) : Except PyError MimePart → Parsing → Prop where
  | skipped (use : mimepart.use = .skipped) : Walked lib self (.ok mimepart) self
  | unreadable (handled : e.inMimepart) :
      Walked lib self (.error e) { self with msg := markError lib self.msg }
  | unknown (use : mimepart.use = .unknown) :
      Walked lib self (.ok mimepart) { self with msg := markError lib self.msg }
  | undecodable (use : mimepart.use = .undecodable) :
      Walked lib self (.ok mimepart) { self with msg := markError lib self.msg }
  | attached (use : mimepart.use = .attached) (part : Part) (trimmed : part.Trimmed)
      (contentType : part.block.contentType = mimepart.contentType) :
      Walked lib self (.ok mimepart)
        { self with msg := { self.msg with parts := self.msg.parts ++ [part] } }
  | html (use : mimepart.use = .html text) :
      Walked lib self (.ok mimepart) { self with htmlParts := self.htmlParts ++ [text] }
  | plain (use : mimepart.use = .plain text) :
      Walked lib self (.ok mimepart) { self with plainParts := self.plainParts ++ [text] }

/-- A part that is saved as an attachment. -/
theorem walked_attachment (lib : Library) (self : Parsing) (mimepart : MimePart)
    (disposition : Unicode) (use : mimepart.use = .attached) : ∃ after,
    (saveAttachment self.msg mimepart.body disposition mimepart.contentType mimepart.filename
      mimepart.contentId).map (fun msg => { self with msg }) = .ok after ∧
    Walked lib self (.ok mimepart) after := by
  obtain ⟨part, trimmed, contentType, saved⟩ := saveAttachment_ok self.msg mimepart.body
    disposition mimepart.contentType mimepart.filename mimepart.contentId
  rw [saved]
  exact ⟨_, rfl, .attached use part trimmed contentType⟩

theorem parseMimepart_walked (lib : Library) (self : Parsing) (mimepart : MimePart)
    (single : mimepart.isMultipart = false) :
    (∃ after, parseMimepart lib mimepart self = .ok after ∧ Walked lib self (.ok mimepart) after) ∨
      parseMimepart lib mimepart self = .error .unicodeDecodeError ∧ mimepart.use = .undecodable := by
  have use : mimepart.use = _ := MimePart.use.eq_1 mimepart
  rw [single] at use
  simp only [Bool.false_eq_true, if_false] at use
  unfold parseMimepart
  dsimp only
  split
  · rename_i unknown
    rw [if_pos unknown] at use
    exact .inl ⟨_, rfl, .unknown use⟩
  · rename_i known
    rw [if_neg known] at use
    split
    · rename_i attachment
      rw [if_pos (.inl attachment)] at use
      exact .inl (walked_attachment lib self mimepart _ use)
    · rename_i other
      split
      · rename_i inline
        rw [if_pos (.inr inline)] at use
        exact .inl (walked_attachment lib self mimepart _ use)
      · rename_i plain
        rw [if_neg (not_or.mpr ⟨other, plain⟩)] at use
        split
        · rename_i text
          rw [if_pos text, MimePart.textUse] at use
          cases body : mimepart.body with
          | none =>
            rw [body] at use
            exact .inl ⟨self, rfl, .skipped use⟩
          | some data =>
            rw [body, Option.map_some] at use
            cases encoded : data.encode with
            | error e =>
              rw [encoded] at use
              exact .inr ⟨by simp only [data.encode_error encoded, encoded]; rfl, use⟩
            | ok text =>
              rw [encoded] at use
              dsimp only at use
              split at use
              · rename_i html
                exact .inl ⟨_, by simp only [encoded, html, if_true]; rfl, .html use⟩
              · rename_i other
                split at use
                · rename_i plain
                  refine .inl ⟨_, ?_, .plain use⟩
                  simp only [encoded, bind, Except.bind, if_neg other, if_pos plain]
                  rfl
                · rename_i neither
                  obtain ⟨after, saved, walked⟩ := walked_attachment lib self mimepart
                    "attachment".toList use
                  refine .inl ⟨after, Eq.trans ?_ saved, walked⟩
                  simp only [encoded, body, bind, Except.bind, if_neg other, if_neg neither]
                  rfl
        · rename_i binary
          rw [if_neg binary] at use
          exact .inl (walked_attachment lib self mimepart _ use)

theorem walkPart_ok (lib : Library) (self : Parsing) (mimepart : MimePart) :
    ∃ after, walkPart lib self (.ok mimepart) = .ok after ∧ Walked lib self (.ok mimepart) after := by
  unfold walkPart
  simp only [Except.bind]
  cases single : mimepart.isMultipart with
  | true => exact ⟨self, rfl, .skipped (by simp only [MimePart.use, single, if_true])⟩
  | false =>
    simp only [Bool.false_eq_true, if_false]
    obtain ⟨after, parsed, walked⟩ | ⟨failed, use⟩ := parseMimepart_walked lib self mimepart single
    · exact ⟨after, by rw [parsed], walked⟩
    · rw [failed]
      exact ⟨_, rfl, .undecodable use⟩

/-- The loop over the parts, as far as none of them ends it. -/
inductive Walks (lib : Library) : Parsing → List (Except PyError MimePart) → Parsing → Prop where
  | nil : Walks lib self [] self
  | cons (first : Walked lib self mimepart next) (rest : Walks lib next walk after) :
      Walks lib self (mimepart :: walk) after

theorem walk_ok (lib : Library) {walk : List (Except PyError MimePart)} (self : Parsing)
    (handled : ∀ e, .error e ∈ walk → e.inMimepart) : ∃ after,
    walk.foldlM (walkPart lib) self = .ok after ∧ Walks lib self walk after := by
  induction walk generalizing self with
  | nil => exact ⟨self, rfl, .nil⟩
  | cons mimepart walk ih =>
    have step : ∃ next, walkPart lib self mimepart = .ok next ∧ Walked lib self mimepart next := by
      cases mimepart with
      | ok mimepart => exact walkPart_ok lib self mimepart
      | error e =>
        have known := handled e List.mem_cons_self
        exact ⟨_, by simp only [walkPart, Except.bind, known, if_true], .unreadable known⟩
    obtain ⟨next, walked, first⟩ := step
    obtain ⟨after, ran, rest⟩ := ih next fun e member => handled e (List.mem_cons_of_mem _ member)
    refine ⟨after, ?_, .cons first rest⟩
    rw [List.foldlM_cons, walked]
    exact ran

/-- A part whose error the handler does not know ends the loop. -/
theorem walk_handled (lib : Library) {walk : List (Except PyError MimePart)} {self : Parsing}
    (ran : walk.foldlM (walkPart lib) self = .ok after) :
    ∀ e, .error e ∈ walk → e.inMimepart := by
  induction walk generalizing self with
  | nil => exact fun _ member => absurd member List.not_mem_nil
  | cons mimepart walk ih =>
    rw [List.foldlM_cons] at ran
    intro e member
    cases walked : walkPart lib self mimepart with
    | error =>
      rw [walked] at ran
      cases ran
    | ok next =>
      rw [walked] at ran
      rcases List.mem_cons.mp member with rfl | later
      · by_contra unknown
        simp only [walkPart, Except.bind, unknown, if_false, reduceCtorEq] at walked
      · exact ih ran e later

/-- The text that a part adds to the HTML body. -/
def htmlText : Except PyError MimePart → Option Unicode
  | .ok mimepart => match mimepart.use with
    | .html text => some text
    | _ => none
  | .error _ => none

/-- The text that a part adds to the plain body. -/
def plainText : Except PyError MimePart → Option Unicode
  | .ok mimepart => match mimepart.use with
    | .plain text => some text
    | _ => none
  | .error _ => none

/-- Reading the part, or the text in it, fails. -/
def Undecodable : Except PyError MimePart → Prop
  | .ok mimepart => mimepart.use = .undecodable
  | .error _ => True

theorem Walked.texts (walked : Walked lib self mimepart after) :
    after.htmlParts = self.htmlParts ++ (htmlText mimepart).toList ∧
      after.plainParts = self.plainParts ++ (plainText mimepart).toList := by
  cases walked with
  | unreadable => simp [htmlText, plainText]
  | skipped use | unknown use | undecodable use | attached use | html use | plain use =>
    simp [htmlText, plainText, use]

/-- A message whose errors are marked stays marked, and its raw body keeps its name. -/
theorem Walked.marks (walked : Walked lib self mimepart after) :
    (self.msg.decodeError ∨ Undecodable mimepart → after.msg.decodeError) ∧
      after.msg.dataSha256 = self.msg.dataSha256 := by
  cases walked with
  | unreadable | unknown | undecodable => exact ⟨fun _ => rfl, rfl⟩
  | skipped use | attached use | html use | plain use =>
    exact ⟨fun marked => marked.resolve_right (by simp [Undecodable, use]), rfl⟩

theorem Walks.texts (walks : Walks lib self walk after) :
    after.htmlParts = self.htmlParts ++ walk.filterMap htmlText ∧
      after.plainParts = self.plainParts ++ walk.filterMap plainText := by
  induction walks with
  | nil => simp
  | @cons _ mimepart _ _ _ first rest ih =>
    obtain ⟨html, plain⟩ := first.texts
    rw [ih.1, ih.2, html, plain]
    constructor
    · cases h : htmlText mimepart <;> simp [h]
    · cases h : plainText mimepart <;> simp [h]

theorem Walks.marks (walks : Walks lib self walk after) :
    (self.msg.decodeError ∨ (∃ mimepart ∈ walk, Undecodable mimepart) → after.msg.decodeError) ∧
      after.msg.dataSha256 = self.msg.dataSha256 := by
  induction walks with
  | nil => simp
  | cons first rest ih =>
    obtain ⟨marked, name⟩ := first.marks
    refine ⟨fun failed => ih.1 ?_, ih.2.trans name⟩
    rcases failed with before | ⟨mimepart, member, failed⟩
    · exact .inl (marked (.inl before))
    · rcases List.mem_cons.mp member with rfl | later
      · exact .inl (marked (.inr failed))
      · exact .inr ⟨mimepart, later, failed⟩

/-! ## The message -/

/-- The text of the body can be turned into a snippet or into HTML. -/
def BodyReads (lib : Library) (htmlParts plainParts : List Unicode) : Prop :=
  let htmlBody := strip htmlParts.flatten
  let plainBody := strip (['\n'].intercalate plainParts)
  if htmlBody ≠ [] then raised (lib.stripTags htmlBody) = none
  else if plainBody ≠ [] then raised (lib.plaintext2html plainBody) = none
  else True

theorem raised_eq_none {x : Except ε α} : raised x = none ↔ ∃ value, x = .ok value := by
  cases x with
  | ok value => exact ⟨fun _ => ⟨value, rfl⟩, fun _ => rfl⟩
  | error e => exact ⟨nofun, nofun⟩

/-- What the body's text does not decide. -/
structure Carries (before after : SyncedMessage) : Prop where
  dataSha256 : after.dataSha256 = before.dataSha256
  decodeError : before.decodeError → after.decodeError

theorem calculateBody_ok (reads : BodyReads lib self.htmlParts self.plainParts) :
    ∃ msg, calculateBody lib self = .ok msg ∧ Carries self.msg msg := by
  unfold BodyReads at reads
  unfold calculateBody
  dsimp only at reads ⊢
  split at reads
  · rename_i html
    obtain ⟨text, stripped⟩ := raised_eq_none.mp reads
    rw [if_pos html, stripped]
    exact ⟨_, rfl, rfl, id⟩
  · rename_i html
    rw [if_neg html]
    split at reads
    · rename_i plain
      obtain ⟨body, converted⟩ := raised_eq_none.mp reads
      rw [if_pos plain, converted]
      exact ⟨_, rfl, rfl, id⟩
    · rename_i plain
      rw [if_neg plain]
      exact ⟨_, rfl, rfl, id⟩

theorem calculateBody_reads (ran : calculateBody lib self = .ok msg) :
    BodyReads lib self.htmlParts self.plainParts := by
  unfold calculateBody at ran
  unfold BodyReads
  dsimp only at ran ⊢
  split at ran
  · rename_i html
    rw [if_pos html]
    cases stripped : lib.stripTags (strip self.htmlParts.flatten) with
    | ok => rfl
    | error => 
      rw [stripped] at ran
      cases ran
  · rename_i html
    rw [if_neg html]
    split at ran
    · rename_i plain
      rw [if_pos plain]
      cases converted : lib.plaintext2html (strip (['\n'].intercalate self.plainParts)) with
      | ok => rfl
      | error =>
        rw [converted] at ran
        cases ran
    · rename_i plain
      rw [if_neg plain]
      trivial

theorem Carries.trans (first : Carries a b) (second : Carries b c) : Carries a c where
  dataSha256 := second.dataSha256.trans first.dataSha256
  decodeError := second.decodeError ∘ first.decodeError

theorem RecipientField.carries (member : field ∈ recipientFields) (msg : SyncedMessage) :
    Carries msg (field.empty msg) := by
  simp only [recipientFields, List.mem_cons, List.not_mem_nil, or_false] at member
  rcases member with rfl | rfl | rfl | rfl | rfl <;> exact ⟨rfl, id⟩

theorem emptyIfTooLong_carries (lib : Library) (msg : SyncedMessage)
    (member : field ∈ recipientFields) : Carries msg (emptyIfTooLong lib msg field) := by
  unfold emptyIfTooLong
  split
  · exact ⟨(RecipientField.carries member msg).dataSha256, fun _ => rfl⟩
  · exact ⟨rfl, id⟩

theorem recipients_carry (lib : Library) (msg : SyncedMessage) :
    Carries msg (recipientFields.foldl (emptyIfTooLong lib) msg) :=
  List.foldlRecOn recipientFields (emptyIfTooLong lib) (motive := Carries msg) ⟨rfl, id⟩
    fun current carried _ member => carried.trans (emptyIfTooLong_carries lib current member)

theorem readBody_ok (lib : Library) (msg : SyncedMessage)
    (handled : ∀ e, .error e ∈ parsed.walk → e.inMimepart)
    (reads : BodyReads lib (parsed.walk.filterMap htmlText) (parsed.walk.filterMap plainText)) :
    ∃ after, readBody lib parsed msg = .ok after ∧ Carries msg after ∧
      ((∃ mimepart ∈ parsed.walk, Undecodable mimepart) → after.decodeError) := by
  obtain ⟨parsing, ran, walks⟩ := walk_ok lib ⟨msg, [], []⟩ handled
  have texts := walks.texts
  simp only [List.nil_append] at texts
  have reads : BodyReads lib parsing.htmlParts parsing.plainParts := by
    rw [texts.1, texts.2]
    exact reads
  obtain ⟨body, calculated, carried⟩ := calculateBody_ok reads
  have kept := carried.trans (recipients_carry lib body)
  have marks := walks.marks
  refine ⟨recipientFields.foldl (emptyIfTooLong lib) body, ?_, ?_, ?_⟩
  · simp only [readBody, ran, calculated, bind, Except.bind]
    rfl
  · exact Carries.trans ⟨marks.2, fun marked => marks.1 (.inl marked)⟩ kept
  · exact fun failed => kept.decodeError (marks.1 (.inr failed))

theorem readBody_reads (ran : readBody lib parsed msg = .ok after) :
    (∀ e, .error e ∈ parsed.walk → e.inMimepart) ∧
      BodyReads lib (parsed.walk.filterMap htmlText) (parsed.walk.filterMap plainText) := by
  unfold readBody at ran
  cases walked : parsed.walk.foldlM (walkPart lib) ⟨msg, [], []⟩ with
  | error =>
    rw [walked] at ran
    cases ran
  | ok parsing =>
    rw [walked] at ran
    have handled := walk_handled lib walked
    obtain ⟨same, ran', walks⟩ := walk_ok lib ⟨msg, [], []⟩ handled
    cases walked.symm.trans ran'
    have texts := walks.texts
    simp only [List.nil_append] at texts
    refine ⟨handled, ?_⟩
    rw [← texts.1, ← texts.2]
    cases calculated : calculateBody lib parsing with
    | error =>
      simp only [calculated, bind, Except.bind] at ran
      cases ran
    | ok body => exact calculateBody_reads calculated

/-- Whatever goes wrong with the message goes wrong in a way that a handler expects. In
particular `In-Reply-To` is not blank, which is among the errors of the headers. -/
def Survives (lib : Library) (receivedDate : Option Int) (bodyString : Bytes) : Prop :=
  match lib.fromString bodyString with
  | .error e => e.inMetadata
  | .ok parsed =>
    match (headerErrors lib receivedDate parsed).findSome? id with
    | some e => e.inMetadata
    | none =>
      (∀ e, .error e ∈ parsed.walk → e.inMimepart) ∧
        BodyReads lib (parsed.walk.filterMap htmlText) (parsed.walk.filterMap plainText)

/-- Some part of the message could not be decoded. -/
def SomeUndecoded (lib : Library) (receivedDate : Option Int) (bodyString : Bytes) : Prop :=
  match lib.fromString bodyString with
  | .error _ => True
  | .ok parsed =>
    match (headerErrors lib receivedDate parsed).findSome? id with
    | some _ => True
    | none => ∃ mimepart ∈ parsed.walk, Undecodable mimepart

theorem parseMetadata_carries (lib : Library) (parsed : Parsed) (bodyString : Bytes)
    (receivedDate : Option Int) (msg : SyncedMessage) :
    Carries msg (assign (parseMetadata lib parsed bodyString receivedDate) msg).1 := by
  apply assign_keeps (Carries msg)
  · intro assignment member
    simp only [parseMetadata, List.mem_cons, List.not_mem_nil, or_false] at member
    rcases member with rfl | rfl | rfl | rfl | rfl | rfl | rfl | rfl | rfl | rfl | rfl | rfl | rfl |
      rfl
    all_goals first
      | exact keeps_ok fun _ carried => carried.trans ⟨rfl, id⟩
      | exact keeps_map fun _ _ _ carried => carried.trans ⟨rfl, id⟩
  · exact ⟨rfl, id⟩

theorem mem_saveToBlockstore (dataSha256 : String) {data : Bytes} (some : data ≠ [])
    (blockstore : Blockstore) :
    (dataSha256, data) ∈ saveToBlockstore dataSha256 data blockstore := by
  rw [saveToBlockstore, if_neg some]
  exact List.mem_cons_self

/-- A message whose errors are all expected is created, and marked with its raw body stored if
something in it could not be decoded. -/
theorem createFromSynced_survives (lib : Library) (receivedDate : Option Int) (bodyString : Bytes)
    (blockstore : Blockstore) (survives : Survives lib receivedDate bodyString) :
    ∃ msg saved, createFromSynced lib receivedDate bodyString blockstore = .ok (msg, saved) ∧
      (SomeUndecoded lib receivedDate bodyString → msg.decodeError = true ∧
        (bodyString ≠ [] → (msg.dataSha256, bodyString) ∈ saved)) := by
  let blank := SyncedMessage.new (lib.sha256 bodyString)
  let saved := saveToBlockstore (lib.sha256 bodyString) bodyString blockstore
  have stored : bodyString ≠ [] → (lib.sha256 bodyString, bodyString) ∈ saved :=
    fun some => mem_saveToBlockstore _ some blockstore
  unfold Survives at survives
  unfold SomeUndecoded
  cases found : lib.fromString bodyString with
  | error e =>
    rw [found] at survives
    refine ⟨markError lib blank, saved, ?_, fun _ => ⟨rfl, stored⟩⟩
    simp only [createFromSynced, readMetadata, found, readMetadata.handle]
    rw [if_pos survives]
    rfl
  | ok parsed =>
    simp only [found] at survives
    have carried := parseMetadata_carries lib parsed bodyString receivedDate blank
    cases first : (headerErrors lib receivedDate parsed).findSome? id with
    | some e =>
      rw [first] at survives
      have read := readMetadata_error lib receivedDate bodyString blank found first
      rw [readMetadata.handle, if_pos survives] at read
      refine ⟨markError lib (assign (parseMetadata lib parsed bodyString receivedDate) blank).1, saved,
        ?_, fun _ => ⟨rfl, fun some => ?_⟩⟩
      · simp only [createFromSynced]
        rw [read]
        rfl
      · rw [markError, carried.dataSha256]
        exact stored some
    | none =>
      rw [first] at survives
      have read := readMetadata_ok lib receivedDate bodyString blank found first
      obtain ⟨after, body, kept, marked⟩ := readBody_ok lib
        (assign (parseMetadata lib parsed bodyString receivedDate) blank).1 survives.1 survives.2
      refine ⟨after, saved, ?_, fun failed => ?_⟩
      · simp only [createFromSynced]
        rw [read]
        simp only [bind, Except.bind, body]
        rfl
      · simp only [first] at failed
        rw [(carried.trans kept).dataSha256]
        exact ⟨marked failed, stored⟩

theorem survives_of_created (created : createFromSynced lib receivedDate bodyString blockstore =
    .ok result) : Survives lib receivedDate bodyString := by
  let blank := SyncedMessage.new (lib.sha256 bodyString)
  unfold Survives
  cases found : lib.fromString bodyString with
  | error e =>
    by_contra unknown
    simp only [createFromSynced, readMetadata, found, readMetadata.handle, if_neg unknown] at created
    cases created
  | ok parsed =>
    dsimp only
    cases first : (headerErrors lib receivedDate parsed).findSome? id with
    | some e =>
      have read := readMetadata_error lib receivedDate bodyString blank found first
      by_contra unknown
      simp only [createFromSynced] at created
      rw [read, readMetadata.handle, if_neg unknown] at created
      cases created
    | none =>
      have read := readMetadata_ok lib receivedDate bodyString blank found first
      simp only [createFromSynced] at created
      rw [read] at created
      simp only [bind, Except.bind] at created
      split at created
      · cases created
      · rename_i body
        exact readBody_reads body

/-- The function returns a message, marked where something could not be decoded, for exactly the
mail whose errors its handlers expect. -/
theorem create_from_synced_returns_iff (lib : Library) (receivedDate : Option Int)
    (bodyString : Bytes) (blockstore : Blockstore) :
    (∃ msg saved, createFromSynced lib receivedDate bodyString blockstore = .ok (msg, saved) ∧
      (SomeUndecoded lib receivedDate bodyString → msg.decodeError = true ∧
        (bodyString ≠ [] → (msg.dataSha256, bodyString) ∈ saved))) ↔
      Survives lib receivedDate bodyString := by
  constructor
  · rintro ⟨_, _, created, _⟩
    exact survives_of_created created
  · exact createFromSynced_survives lib receivedDate bodyString blockstore

/-- Mail that is parsed without an error, with the given headers and parts. -/
def plainMail (header : String → Option Unicode) (walk : List (Except PyError MimePart)) :
    Library where
  sha256 _ := "3e6a"
  fromString _ := .ok { subject := some "Hello".toList, header, sections := fun _ => [], walk }
  addressList _ := .ok []
  decode text := .ok text
  emailDate _ := .ok 0
  logWarning _ := .ok ()
  stripTags text := .ok text
  plaintext2html text := .ok text
  utcnow := 0

/-- `In-Reply-To: =?utf-8?q?=20?=`, which decodes to one blank. -/
theorem blank_in_reply_to_raises :
    createFromSynced (plainMail (fun name => if name = "In-Reply-To" then some [' '] else none) [])
      (some 0) [72] [] = .error .indexError := by
  rfl

end Synced
end SyncEngine
