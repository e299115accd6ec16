import CloudDrive.Search.Indexing
import CloudDrive.Foundation.Execution

/-! # Searching by meaning

`chunk_text` and `embed_chunks` of `app/search/semantic.py`, the indexer that stores what they
give, and the backfill of `app/search/backfill.py` for files that were indexed without. -/

namespace CloudDrive

open Outcome Relational Execution

/-! ## Chunks -/

/-- `CHUNK_SIZE`. -/
def embeddedChunkSize : Nat := 1000

/-- `CHUNK_OVERLAP`. -/
def embeddedChunkOverlap : Nat := 100

/-- `MAX_CHUNKS`. -/
def maxEmbeddedChunks : Nat := 50

/-- `SNIPPET_CHARS`. -/
def snippetChars : Nat := 300

/-- `max(1, size - overlap)`. -/
def embeddedChunkStep : Nat := max 1 (embeddedChunkSize - embeddedChunkOverlap)

/-- The loop of `chunk_text`, where this many chunks may be added yet. -/
def chunksFrom (text : List Char) : Nat → Nat → List String
  | 0, _ => []
  | room + 1, start =>
      if start < text.length then
        String.ofList ((text.drop start).take embeddedChunkSize) ::
          chunksFrom text room (start + embeddedChunkStep)
      else []

def chunkText (text : String) : List String :=
  let text := strip text
  if text = "" then []
  else if text.length ≤ embeddedChunkSize then [text]
  else chunksFrom text.toList maxEmbeddedChunks 0

def snippetOf (chunk : String) : String :=
  String.ofList (chunk.toList.take snippetChars)

/-! ## The rows -/

/-- `FileEmbedding`, over the vectors of a model. -/
structure FileEmbedding (ν : Type) where
  itemId : Uuid
  chunkIndex : Nat
  snippet : String
  embedding : ν
  deriving DecidableEq

structure ChunkEmbedding (ν : Type) where
  index : Nat
  snippet : String
  vector : ν

structure SearchState (ν : Type) where
  index : ContentIndex
  embeddings : List (FileEmbedding ν)

section Embedding

variable {ν : Type}

/-- The loop of `embed_chunks` from a chunk on: `none` where the service raises. -/
def embedFrom (client : String → Option ν) : Nat → List String → Option (List (ChunkEmbedding ν))
  | _, [] => some []
  | index, piece :: rest => do
      let vector ← client piece
      let later ← embedFrom client (index + 1) rest
      pure (⟨index, snippetOf piece, vector⟩ :: later)

def embedChunks (client : String → Option ν) (text : String) : Option (List (ChunkEmbedding ν)) :=
  embedFrom client 0 (chunkText text)

def replaceChunks (itemId : Uuid) (chunks : List (ChunkEmbedding ν))
    (embeddings : List (FileEmbedding ν)) : List (FileEmbedding ν) :=
  (embeddings.filter fun row => decide (row.itemId ≠ itemId)) ++
    chunks.map fun chunk => ⟨itemId, chunk.index, chunk.snippet, chunk.vector⟩

/-- `_index_embedding`: where there is no service, or it fails, nothing is stored. -/
def indexEmbedding (client : Option (String → Option ν)) (itemId : Uuid) (text : String)
    (embeddings : List (FileEmbedding ν)) : List (FileEmbedding ν) :=
  match client.bind fun client => embedChunks client text with
  | some chunks => replaceChunks itemId chunks embeddings
  | none => embeddings

/-- `_delete_embedding`. -/
def deleteEmbedding (client : Option (String → Option ν)) (itemId : Uuid)
    (embeddings : List (FileEmbedding ν)) : List (FileEmbedding ν) :=
  match client with
  | some _ => embeddings.filter fun row => decide (row.itemId ≠ itemId)
  | none => embeddings

/-- `index_file`. -/
def SearchState.indexes [TextExtraction] (client : Option (String → Option ν)) (itemId : Uuid)
    (data : Content) (mimeType extension : Option String) (state : SearchState ν) :
    SearchState ν where
  index := indexFile itemId data mimeType extension state.index
  embeddings := match extractText data mimeType extension with
    | some text => indexEmbedding client itemId text state.embeddings
    | none => deleteEmbedding client itemId state.embeddings

/-- `_no_embedding`. -/
def noEmbedding (embeddings : List (FileEmbedding ν)) (itemId : Uuid) : Bool :=
  embeddings.all fun row => decide (row.itemId ≠ itemId)

/-- The rows that `list_pending` and `count_pending` select, of files that the user owns. -/
def SearchState.pending (owned : Uuid → Bool) (state : SearchState ν) : List ContentIndexRow :=
  state.index.rows.filter fun row => owned row.itemId && noEmbedding state.embeddings row.itemId

/-- The loop of `EmbeddingBackfillService.run`. -/
def backfillEach (client : String → Option ν) :
    List ContentIndexRow → List (FileEmbedding ν) → Option (List (FileEmbedding ν))
  | [], embeddings => some embeddings
  | row :: rest, embeddings => do
      let chunks ← embedChunks client row.content
      backfillEach client rest (replaceChunks row.itemId chunks embeddings)

structure BackfillResult where
  indexed : Nat
  remaining : Nat
  deriving DecidableEq, Repr

/-- `run`. The database lists the rows that are pending in an order of its own. -/
def SearchState.backfill (client : String → Option ν)
    (order : List ContentIndexRow → List ContentIndexRow) (owned : Uuid → Bool) (batchSize : Nat)
    (state : SearchState ν) : Option (BackfillResult × SearchState ν) := do
  let pending := (order (state.pending owned)).take batchSize
  let embeddings ← backfillEach client pending state.embeddings
  let after : SearchState ν := { state with embeddings := embeddings }
  pure (⟨pending.length, (after.pending owned).length⟩, after)

/-- As many calls of `run`, one after the other. -/
def SearchState.backfillRuns (client : String → Option ν)
    (order : List ContentIndexRow → List ContentIndexRow) (owned : Uuid → Bool) (batchSize : Nat) :
    Nat → SearchState ν → Option (List BackfillResult × SearchState ν)
  | 0, state => some ([], state)
  | runs + 1, state => do
      let (result, middle) ← state.backfill client order owned batchSize
      let (results, after) ← middle.backfillRuns client order owned batchSize runs
      pure (result :: results, after)

/-! ## Runs -/

/-- A new file is indexed, a backfill is asked for, or a file is deleted with its rows. -/
inductive SearchAction (ν : Type) where
  | indexes (client : Option (String → Option ν)) (itemId : Uuid) (data : Content)
      (mimeType extension : Option String)
  | backfills (client : String → Option ν) (order : List ContentIndexRow → List ContentIndexRow)
      (owned : Uuid → Bool) (batchSize : Nat)
  | deletes (itemId : Uuid)

/-- A backfill that fails is rolled back. -/
def SearchAction.apply [TextExtraction] (action : SearchAction ν) (state : SearchState ν) :
    SearchState ν :=
  match action with
  | .indexes client itemId data mimeType extension =>
      state.indexes client itemId data mimeType extension
  | .backfills client order owned batchSize =>
      match state.backfill client order owned batchSize with
      | some (_, after) => after
      | none => state
  | .deletes itemId =>
      { index := state.index.filter fun row => decide (row.itemId ≠ itemId)
        embeddings := state.embeddings.filter fun row => decide (row.itemId ≠ itemId) }

/-- Only `upload_simple` indexes, the file that it has just created. -/
def SearchAction.Offered (state : SearchState ν) : SearchAction ν → Prop
  | .indexes _ itemId _ _ _ => noEmbedding state.embeddings itemId = true
  | .backfills _ order _ _ => ∀ rows, (order rows).Perm rows
  | .deletes _ => True

def SearchStep [TextExtraction] (action : SearchAction ν) (before after : SearchState ν) : Prop :=
  action.Offered before ∧ after = action.apply before

/-- A run from empty tables on. -/
def SearchHistory [TextExtraction] (events : List (Event (SearchState ν) (SearchAction ν)))
    (state : SearchState ν) : Prop :=
  Run SearchStep ⟨Table.empty, []⟩ events state

end Embedding

/-! ## What the chunks hold -/

theorem getElem?_chunksFrom {text : List Char} : ∀ {room start number : Nat}, number < room →
    start + number * embeddedChunkStep < text.length →
    (chunksFrom text room start)[number]? = some (String.ofList
      ((text.drop (start + number * embeddedChunkStep)).take embeddedChunkSize))
  | 0, _, _, within, _ => absurd within (Nat.not_lt_zero _)
  | room + 1, start, 0, _, inText => by
      rw [Nat.zero_mul, Nat.add_zero] at inText ⊢
      rw [chunksFrom, if_pos inText]
      rfl
  | room + 1, start, number + 1, within, inText => by
      have next : start + (number + 1) * embeddedChunkStep =
          start + embeddedChunkStep + number * embeddedChunkStep := by
        rw [Nat.succ_mul]
        omega
      have here : start < text.length := Nat.lt_of_le_of_lt (Nat.le_add_right _ _) inText
      rw [chunksFrom, if_pos here, List.getElem?_cons_succ, next]
      exact getElem?_chunksFrom (Nat.lt_of_succ_lt_succ within) (next ▸ inText)

/-- Every character of the text is in a chunk, up to the bound on their number: the chunks
leave no gap. -/
theorem chunkText_covers (text : String) {position : Nat}
    (inText : position < (strip text).length)
    (within : position < maxEmbeddedChunks * embeddedChunkStep) :
    ∃ number piece, (chunkText text)[number]? = some piece ∧
      piece.toList = ((strip text).toList.drop (number * embeddedChunkStep)).take
        embeddedChunkSize ∧
      number * embeddedChunkStep ≤ position ∧
        position < number * embeddedChunkStep + embeddedChunkSize := by
  have some_ : strip text ≠ "" := by
    intro empty
    rw [empty] at inText
    exact absurd inText (Nat.not_lt_zero _)
  rw [chunkText, if_neg some_]
  by_cases short : (strip text).length ≤ embeddedChunkSize
  · rw [if_pos short]
    refine ⟨0, strip text, rfl, ?_, ?_, ?_⟩
    · rw [Nat.zero_mul, List.drop_zero, List.take_of_length_le]
      rw [String.length_toList]
      exact short
    · exact (Nat.zero_mul _).symm ▸ Nat.zero_le _
    · rw [Nat.zero_mul, Nat.zero_add]
      exact Nat.lt_of_lt_of_le inText short
  · rw [if_neg short]
    have positive : 0 < embeddedChunkStep := by decide
    have few : position / embeddedChunkStep < maxEmbeddedChunks :=
      (Nat.div_lt_iff_lt_mul positive).mpr within
    have begins : position / embeddedChunkStep * embeddedChunkStep ≤ position :=
      Nat.div_mul_le_self _ _
    have starts : 0 + position / embeddedChunkStep * embeddedChunkStep <
        (strip text).toList.length := by
      rw [String.length_toList, Nat.zero_add]
      exact Nat.lt_of_le_of_lt begins inText
    refine ⟨position / embeddedChunkStep, _, getElem?_chunksFrom few starts, ?_, begins, ?_⟩
    · rw [Nat.zero_add, String.toList_ofList]
    · have remainder := Nat.mod_lt position positive
      have whole := Nat.div_add_mod' position embeddedChunkStep
      have overlaps : embeddedChunkStep ≤ embeddedChunkSize := by decide
      omega

theorem chunkText_ne_nil {text : String} (some_ : strip text ≠ "") : chunkText text ≠ [] := by
  rw [chunkText, if_neg some_]
  split
  · exact List.cons_ne_nil _ _
  · have starts : 0 < (strip text).toList.length := by
      apply List.length_pos_iff.mpr
      intro empty
      exact some_ (String.toList_inj.mp empty)
    rw [maxEmbeddedChunks, chunksFrom, if_pos starts]
    exact List.cons_ne_nil _ _

/-! ## The text that is indexed -/

/-- What is left after stripping begins with a character that stripping does not remove. -/
theorem strip_head {text : String} (some_ : strip text ≠ "") :
    ∃ first rest, (strip text).toList = first :: rest ∧ isSpace first = false := by
  have chars : (strip text).toList =
      ((text.toList.dropWhile isSpace).reverse.dropWhile isSpace).reverse :=
    String.toList_ofList
  cases kept : (strip text).toList with
  | nil => exact absurd (String.toList_inj.mp kept) some_
  | cons first rest =>
      refine ⟨first, rest, rfl, ?_⟩
      have isPrefix : (strip text).toList <+: text.toList.dropWhile isSpace := by
        rw [chars, ← List.reverse_suffix, List.reverse_reverse]
        exact List.dropWhile_suffix isSpace
      rcases isPrefix with ⟨behind, whole⟩
      rw [kept, List.cons_append] at whole
      have head : (text.toList.dropWhile isSpace).head? = some first := by rw [← whole]; rfl
      have notSpace := List.head?_dropWhile_not isSpace text.toList
      rw [head] at notSpace
      simpa using notSpace

theorem strip_ne_empty {text : String} {first : Char} {rest : List Char}
    (begins : text.toList = first :: rest) (notSpace : isSpace first = false) :
    strip text ≠ "" := by
  intro empty
  have chars : ((text.toList.dropWhile isSpace).reverse.dropWhile isSpace).reverse = [] := by
    rw [← String.toList_ofList (l := ((text.toList.dropWhile isSpace).reverse.dropWhile
      isSpace).reverse)]
    exact congrArg String.toList empty
  have spaces := List.dropWhile_eq_nil_iff.mp (List.reverse_eq_nil_iff.mp chars)
  have isSpace_ : isSpace first = true := by
    apply spaces
    rw [begins, List.dropWhile_cons_of_neg (by simp [notSpace])]
    exact List.mem_reverse.mpr List.mem_cons_self
  rw [notSpace] at isSpace_
  cases isSpace_

theorem cut_head {first : Char} {rest : List Char} : ∀ {limit : Nat}, 0 < limit →
    ∃ kept, (if limit < (first :: rest).length then (first :: rest).take limit
      else first :: rest) = first :: kept
  | limit + 1, _ => by
      split
      · exact ⟨rest.take limit, rfl⟩
      · exact ⟨rest, rfl⟩

/-- A text that is indexed is not blank. -/
theorem strip_clean_ne_empty {text : String} (some_ : clean text ≠ "") :
    strip (clean text) ≠ "" := by
  have chars : (clean text).toList = if maxChars < (strip text).toList.length then
      (strip text).toList.take maxChars else (strip text).toList := String.toList_ofList
  have stripped : strip text ≠ "" := by
    intro empty
    apply some_
    apply String.toList_inj.mp
    have short : ¬ maxChars < ("" : String).toList.length := Nat.not_lt_zero _
    rw [chars, empty, if_neg short]
  rcases strip_head stripped with ⟨first, rest, begins, notSpace⟩
  rw [begins] at chars
  have positive : 0 < maxChars := by decide
  rcases cut_head positive with ⟨kept, cut⟩
  rw [cut] at chars
  exact strip_ne_empty chars notSpace

theorem cleaned_nonblank {text result : String} (isResult : cleaned text = some result) :
    strip result ≠ "" := by
  rw [cleaned] at isResult
  split at isResult
  · cases isResult
  · rename_i some_
    rw [← Option.some.inj isResult]
    exact strip_clean_ne_empty some_

theorem extractText_nonblank [TextExtraction] {data : Content}
    {mimeType extension : Option String} {text : String}
    (extracts : extractText data mimeType extension = some text) : strip text ≠ "" := by
  rw [extractText] at extracts
  split at extracts
  · cases extracts
  · split at extracts
    · exact cleaned_nonblank extracts
    · split at extracts
      · rw [extractPdf] at extracts
        split at extracts
        · cases extracts
        · exact cleaned_nonblank extracts
      · cases extracts

/-! ## The rows of a file -/

section Rows

variable {ν : Type} {client : String → Option ν} {itemId otherId : Uuid} {text : String}
  {embeddings : List (FileEmbedding ν)} {chunks : List (ChunkEmbedding ν)}

def rowsOf (itemId : Uuid) (embeddings : List (FileEmbedding ν)) : List (FileEmbedding ν) :=
  embeddings.filter fun row => decide (row.itemId = itemId)

theorem mem_rowsOf {row : FileEmbedding ν} :
    row ∈ rowsOf itemId embeddings ↔ row ∈ embeddings ∧ row.itemId = itemId := by
  rw [rowsOf, List.mem_filter, decide_eq_true_iff]

theorem noEmbedding_iff : noEmbedding embeddings itemId = true ↔ rowsOf itemId embeddings = [] := by
  simp [noEmbedding, rowsOf]

theorem rowsOf_forget : rowsOf itemId (embeddings.filter fun row => decide (row.itemId ≠ itemId)) =
    [] := by
  rw [rowsOf, List.filter_eq_nil_iff]
  intro row member isItem
  exact of_decide_eq_true (List.mem_filter.mp member).2 (of_decide_eq_true isItem)

theorem rowsOf_forget_other (other : otherId ≠ itemId) :
    rowsOf otherId (embeddings.filter fun row => decide (row.itemId ≠ itemId)) =
      rowsOf otherId embeddings := by
  rw [rowsOf, rowsOf, List.filter_filter]
  apply List.filter_congr
  intro row _
  by_cases isOther : row.itemId = otherId
  · simp [isOther, other]
  · simp [isOther]

theorem rowsOf_replaceChunks : rowsOf itemId (replaceChunks itemId chunks embeddings) =
    chunks.map fun chunk => ⟨itemId, chunk.index, chunk.snippet, chunk.vector⟩ := by
  have old : (embeddings.filter fun row => decide (row.itemId ≠ itemId)).filter
      (fun row => decide (row.itemId = itemId)) = [] := rowsOf_forget
  rw [replaceChunks, rowsOf, List.filter_append, old, List.nil_append, List.filter_eq_self]
  intro row member
  rcases List.mem_map.mp member with ⟨chunk, _, rfl⟩
  exact decide_eq_true rfl

theorem rowsOf_replaceChunks_other (other : otherId ≠ itemId) :
    rowsOf otherId (replaceChunks itemId chunks embeddings) = rowsOf otherId embeddings := by
  rw [replaceChunks, rowsOf, List.filter_append]
  have fresh : (chunks.map fun chunk => (⟨itemId, chunk.index, chunk.snippet, chunk.vector⟩ :
      FileEmbedding ν)).filter (fun row => decide (row.itemId = otherId)) = [] := by
    rw [List.filter_eq_nil_iff]
    intro row member isOther
    rcases List.mem_map.mp member with ⟨chunk, _, rfl⟩
    exact other (of_decide_eq_true isOther).symm
  rw [fresh, List.append_nil]
  exact rowsOf_forget_other other

/-- The rows are those of all chunks of a text: numbered, each with the snippet of its chunk and
the vector that a client gave for the whole chunk. -/
def Embeds (text : String) (rows : List (FileEmbedding ν)) : Prop :=
  rows.map (fun row => (row.snippet, row.chunkIndex)) =
      ((chunkText text).map snippetOf).zipIdx ∧
    ∃ client : String → Option ν,
      (chunkText text).map client = rows.map fun row => some row.embedding

theorem embedFrom_numbers : ∀ {pieces : List String} {index : Nat}
    {chunks : List (ChunkEmbedding ν)}, embedFrom client index pieces = some chunks →
    chunks.map (fun chunk => (chunk.snippet, chunk.index)) = (pieces.map snippetOf).zipIdx index ∧
      pieces.map client = chunks.map fun chunk => some chunk.vector
  | [], _, _, gives => by
      cases gives
      exact ⟨rfl, rfl⟩
  | piece :: rest, index, chunks, gives => by
      simp only [embedFrom, Option.bind_eq_bind, Option.bind_eq_some_iff, Option.pure_def,
        Option.some.injEq] at gives
      rcases gives with ⟨vector, answers, later, laterGives, rfl⟩
      rcases embedFrom_numbers laterGives with ⟨numbers, vectors⟩
      constructor
      · rw [List.map_cons, List.map_cons, List.zipIdx_cons, numbers]
      · rw [List.map_cons, List.map_cons, answers, vectors]

theorem embedFrom_answers (answers : ∀ piece, (client piece).isSome = true) :
    ∀ (pieces : List String) (index : Nat), ∃ chunks, embedFrom client index pieces = some chunks
  | [], _ => ⟨[], rfl⟩
  | piece :: rest, index => by
      rcases Option.isSome_iff_exists.mp (answers piece) with ⟨vector, isVector⟩
      rcases embedFrom_answers answers rest (index + 1) with ⟨later, isLater⟩
      refine ⟨⟨index, snippetOf piece, vector⟩ :: later, ?_⟩
      rw [embedFrom, isVector, isLater]
      rfl

theorem embeds_replaceChunks (gives : embedChunks client text = some chunks) :
    Embeds text (rowsOf itemId (replaceChunks itemId chunks embeddings)) := by
  rcases embedFrom_numbers gives with ⟨numbers, vectors⟩
  rw [rowsOf_replaceChunks]
  refine ⟨?_, client, ?_⟩
  · rw [List.map_map, ← numbers]
    rfl
  · rw [List.map_map, vectors]
    rfl

/-- A text that is not blank has a chunk, so its file is not pending any more. -/
theorem rowsOf_replaceChunks_ne_nil (some_ : strip text ≠ "")
    (gives : embedChunks client text = some chunks) :
    rowsOf itemId (replaceChunks itemId chunks embeddings) ≠ [] := by
  intro isEmpty
  have embeds : Embeds text (rowsOf itemId (replaceChunks itemId chunks embeddings)) :=
    embeds_replaceChunks gives
  have nothing := congrArg List.length embeds.1
  rw [isEmpty, List.map_nil] at nothing
  rw [List.length_nil, List.length_zipIdx, List.length_map] at nothing
  exact chunkText_ne_nil some_ (List.length_eq_zero_iff.mp nothing.symm)

end Rows

/-! ## What is stored for a file -/

section Stored

variable {ν : Type} {client : String → Option ν} {state : SearchState ν}
  {events : List (Event (SearchState ν) (SearchAction ν))}
  {embeddings : List (FileEmbedding ν)} {index : ContentIndex}

/-- Either nothing is stored for a file, or all that belongs to its indexed text. -/
def Embedded (itemId : Uuid) (index : ContentIndex) (rows : List (FileEmbedding ν)) : Prop :=
  rows = [] ∨ ∃ text, ⟨itemId, text⟩ ∈ index ∧ Embeds text rows

structure SearchState.Whole (state : SearchState ν) : Prop where
  texts : ∀ row ∈ state.index, strip row.content ≠ ""
  embedded : ∀ itemId, Embedded itemId state.index (rowsOf itemId state.embeddings)

theorem Embedded.replaced {itemId : Uuid} {text : String} {chunks : List (ChunkEmbedding ν)}
    (gives : embedChunks client text = some chunks) (indexed : ⟨itemId, text⟩ ∈ index)
    (embedded : ∀ otherId, Embedded otherId index (rowsOf otherId embeddings)) (otherId : Uuid) :
    Embedded otherId index (rowsOf otherId (replaceChunks itemId chunks embeddings)) := by
  by_cases other : otherId = itemId
  · rw [other]
    exact .inr ⟨text, indexed, embeds_replaceChunks gives⟩
  · rw [rowsOf_replaceChunks_other other]
    exact embedded otherId

theorem Embedded.backfilled : ∀ {rows : List ContentIndexRow}
    {embeddings after : List (FileEmbedding ν)}, backfillEach client rows embeddings = some after →
    (∀ row ∈ rows, row ∈ index) →
    (∀ itemId, Embedded itemId index (rowsOf itemId embeddings)) →
    ∀ itemId, Embedded itemId index (rowsOf itemId after)
  | [], _, _, gives, _, embedded => by
      cases gives
      exact embedded
  | row :: rest, embeddings, after, gives, listed, embedded => by
      simp only [backfillEach, Option.bind_eq_bind, Option.bind_eq_some_iff] at gives
      rcases gives with ⟨chunks, isChunks, gives⟩
      rcases List.forall_mem_cons.mp listed with ⟨here, later⟩
      exact Embedded.backfilled gives later (Embedded.replaced isChunks here embedded)

theorem Embedded.forgotten {itemId otherId : Uuid}
    (embedded : Embedded otherId index (rowsOf otherId embeddings)) :
    Embedded otherId (index.filter fun row => decide (row.itemId ≠ itemId))
      (rowsOf otherId (embeddings.filter fun row => decide (row.itemId ≠ itemId))) := by
  by_cases other : otherId = itemId
  · rw [other]
    exact .inl rowsOf_forget
  · rw [rowsOf_forget_other other]
    rcases embedded with nothing | ⟨text, indexed, embeds⟩
    · exact .inl nothing
    · exact .inr ⟨text, Table.mem_filter.mpr ⟨indexed, decide_eq_true other⟩, embeds⟩

theorem deleteEmbedding_new {itemId : Uuid} {service : Option (String → Option ν)}
    (isNew : noEmbedding embeddings itemId = true) :
    deleteEmbedding service itemId embeddings =
      embeddings.filter fun row => decide (row.itemId ≠ itemId) := by
  cases service with
  | some _ => rfl
  | none => exact (List.filter_eq_self.mpr (List.all_eq_true.mp isNew)).symm

theorem SearchState.Whole.forgotten {itemId : Uuid} (whole : state.Whole) :
    SearchState.Whole ⟨state.index.filter fun row => decide (row.itemId ≠ itemId),
      state.embeddings.filter fun row => decide (row.itemId ≠ itemId)⟩ where
  texts row member := whole.texts row (Table.mem_filter.mp member).1
  embedded otherId := (whole.embedded otherId).forgotten

variable [TextExtraction]

theorem SearchState.Whole.indexed {itemId : Uuid} {data : Content}
    {mimeType extension : Option String} {service : Option (String → Option ν)}
    (whole : state.Whole) (isNew : noEmbedding state.embeddings itemId = true) :
    (state.indexes service itemId data mimeType extension).Whole := by
  rw [SearchState.indexes, indexFile]
  cases extracts : extractText data mimeType extension with
  | none =>
      show SearchState.Whole ⟨_, deleteEmbedding service itemId state.embeddings⟩
      rw [deleteEmbedding_new isNew]
      exact whole.forgotten
  | some text =>
      have here : (⟨itemId, text⟩ : ContentIndexRow) ∈ state.index.save ⟨itemId, text⟩ :=
        Table.mem_save.mpr (.inl rfl)
      have kept : ∀ otherId, Embedded otherId (state.index.save ⟨itemId, text⟩)
          (rowsOf otherId state.embeddings) := by
        intro otherId
        rcases whole.embedded otherId with nothing | ⟨other, indexed, embeds⟩
        · exact .inl nothing
        · by_cases same : otherId = itemId
          · rw [same]
            exact .inl (noEmbedding_iff.mp isNew)
          · exact .inr ⟨other, Table.mem_save.mpr (.inr ⟨indexed, same⟩), embeds⟩
      constructor
      · intro row member
        rcases Table.mem_save.mp member with rfl | ⟨old, _⟩
        · exact extractText_nonblank extracts
        · exact whole.texts row old
      · show ∀ otherId, Embedded otherId (state.index.save ⟨itemId, text⟩)
          (rowsOf otherId (indexEmbedding service itemId text state.embeddings))
        rw [indexEmbedding]
        cases gives : service.bind fun client => embedChunks client text with
        | none => exact kept
        | some chunks =>
            rcases Option.bind_eq_some_iff.mp gives with ⟨client, _, isChunks⟩
            exact Embedded.replaced isChunks here kept

theorem SearchState.Whole.step {action : SearchAction ν} {after : SearchState ν}
    (whole : state.Whole) (taken : SearchStep action state after) : after.Whole := by
  rcases taken with ⟨offered, rfl⟩
  cases action with
  | indexes service itemId data mimeType extension => exact whole.indexed offered
  | deletes itemId => exact whole.forgotten
  | backfills client order owned batchSize =>
      rw [SearchAction.apply]
      cases filled : state.backfill client order owned batchSize with
      | none => exact whole
      | some result =>
          simp only [SearchState.backfill, Option.bind_eq_bind, Option.bind_eq_some_iff,
            Option.pure_def, Option.some.injEq] at filled
          rcases filled with ⟨embeddings, gives, rfl⟩
          refine ⟨whole.texts, Embedded.backfilled gives ?_ whole.embedded⟩
          intro row member
          have pending := (offered _).mem_iff.mp (List.mem_of_mem_take member)
          exact (List.mem_filter.mp pending).1

theorem SearchHistory.whole (history : SearchHistory events state) : state.Whole := by
  refine Run.keeps ⟨?_, ?_⟩ (fun event _ whole taken => whole.step taken) history
  · intro row member
    exact absurd member (Table.not_mem_empty row)
  · intro itemId
    exact .inl rfl

end Stored

/-! ## Files that are pending -/

section Pending

variable {ν : Type} {client : String → Option ν}
  {order : List ContentIndexRow → List ContentIndexRow} {state : SearchState ν}
  {events : List (Event (SearchState ν) (SearchAction ν))}

/-- With a service that answers, every listed file gets its rows, and no other file changes. -/
theorem backfillEach_answers (answers : ∀ piece, (client piece).isSome = true) :
    ∀ (rows : List ContentIndexRow) (embeddings : List (FileEmbedding ν)),
    (∀ row ∈ rows, strip row.content ≠ "") →
    ∃ after, backfillEach client rows embeddings = some after ∧
      (∀ row ∈ rows, rowsOf row.itemId after ≠ []) ∧
      ∀ itemId, (∀ row ∈ rows, row.itemId ≠ itemId) →
        rowsOf itemId after = rowsOf itemId embeddings
  | [], embeddings, _ => ⟨embeddings, rfl, fun _ member => absurd member List.not_mem_nil,
      fun _ _ => rfl⟩
  | row :: rest, embeddings, texts => by
      rcases List.forall_mem_cons.mp texts with ⟨here, later⟩
      rcases embedFrom_answers answers (chunkText row.content) 0 with ⟨chunks, gives⟩
      have isChunks : embedChunks client row.content = some chunks := gives
      rcases backfillEach_answers answers rest (replaceChunks row.itemId chunks embeddings)
        later with ⟨after, filled, stored, kept⟩
      refine ⟨after, ?_, ?_, ?_⟩
      · rw [backfillEach, isChunks]
        exact filled
      · rw [List.forall_mem_cons]
        refine ⟨?_, stored⟩
        by_cases again : ∀ other ∈ rest, other.itemId ≠ row.itemId
        · rw [kept _ again]
          exact rowsOf_replaceChunks_ne_nil here isChunks
        · push Not at again
          rcases again with ⟨other, listed, same⟩
          exact same ▸ stored other listed
      · intro itemId apart
        rcases List.forall_mem_cons.mp apart with ⟨other, others⟩
        rw [kept itemId others, rowsOf_replaceChunks_other other.symm]

/-- What is left of a list after the first rows of one of its orders were taken out. -/
theorem length_filter_taken {rows listed : List ContentIndexRow} (reordered : listed.Perm rows)
    (keyed : (rows.map ContentIndexRow.itemId).Nodup) (count : Nat) :
    (rows.filter fun row =>
      decide (∀ taken ∈ listed.take count, taken.itemId ≠ row.itemId)).length =
        rows.length - count := by
  have nodup : ((listed.take count ++ listed.drop count).map ContentIndexRow.itemId).Nodup := by
    rw [List.take_append_drop]
    exact (reordered.map _).nodup_iff.mpr keyed
  rw [List.map_append, List.nodup_append] at nodup
  have taken : (listed.take count).filter (fun row =>
      decide (∀ taken ∈ listed.take count, taken.itemId ≠ row.itemId)) = [] := by
    rw [List.filter_eq_nil_iff]
    intro row member apart
    exact of_decide_eq_true apart row member rfl
  have left : (listed.drop count).filter (fun row =>
      decide (∀ taken ∈ listed.take count, taken.itemId ≠ row.itemId)) = listed.drop count := by
    rw [List.filter_eq_self]
    intro row member
    refine decide_eq_true fun taken first => ?_
    exact nodup.2.2 _ (List.mem_map_of_mem first) _ (List.mem_map_of_mem member)
  rw [← (reordered.filter _).length_eq]
  conv_lhs => rw [← List.take_append_drop count listed, List.filter_append]
  rw [List.take_append_drop, taken, left, List.nil_append, List.length_drop, reordered.length_eq]

theorem pending_filled {owned : Uuid → Bool} {embeddings : List (FileEmbedding ν)}
    {batch : List ContentIndexRow} (stored : ∀ row ∈ batch, rowsOf row.itemId embeddings ≠ [])
    (kept : ∀ itemId, (∀ row ∈ batch, row.itemId ≠ itemId) →
      rowsOf itemId embeddings = rowsOf itemId state.embeddings) :
    (⟨state.index, embeddings⟩ : SearchState ν).pending owned =
      (state.pending owned).filter fun row =>
        decide (∀ taken ∈ batch, taken.itemId ≠ row.itemId) := by
  rw [SearchState.pending, SearchState.pending, List.filter_filter]
  apply List.filter_congr
  intro row _
  by_cases apart : ∀ taken ∈ batch, taken.itemId ≠ row.itemId
  · have same : noEmbedding embeddings row.itemId = noEmbedding state.embeddings row.itemId := by
      rw [Bool.eq_iff_iff, noEmbedding_iff, noEmbedding_iff, kept _ apart]
    rw [same, decide_eq_true apart, Bool.true_and]
  · have has : noEmbedding embeddings row.itemId = false := by
      rw [Bool.eq_false_iff, Ne, noEmbedding_iff]
      push Not at apart
      rcases apart with ⟨taken, listed, same⟩
      exact same ▸ stored taken listed
    rw [has, decide_eq_false apart, Bool.and_false, Bool.false_and]

theorem SearchState.Whole.drained (owned : Uuid → Bool) (batchSize : Nat) (whole : state.Whole)
    (answers : ∀ piece, (client piece).isSome = true)
    (reorders : ∀ rows, (order rows).Perm rows) :
    ∃ after, state.backfill client order owned batchSize =
        some (⟨min batchSize (state.pending owned).length,
          (state.pending owned).length - batchSize⟩, after) ∧
      (after.pending owned).length = (state.pending owned).length - batchSize ∧
      after.Whole ∧ ∀ row ∈ state.embeddings, row ∈ after.embeddings := by
  have reordered := reorders (state.pending owned)
  have isPending : ∀ row ∈ (order (state.pending owned)).take batchSize,
      row ∈ state.pending owned := fun row member =>
    reordered.mem_iff.mp (List.mem_of_mem_take member)
  have texts : ∀ row ∈ (order (state.pending owned)).take batchSize, strip row.content ≠ "" :=
    fun row member => whole.texts row (List.mem_filter.mp (isPending row member)).1
  rcases backfillEach_answers answers _ state.embeddings texts with
    ⟨embeddings, filled, stored, kept⟩
  have keyed : ((state.pending owned).map ContentIndexRow.itemId).Nodup :=
    state.index.nodup.sublist (List.filter_sublist.map _)
  have remaining : ((⟨state.index, embeddings⟩ : SearchState ν).pending owned).length =
      (state.pending owned).length - batchSize := by
    rw [pending_filled stored kept]
    exact length_filter_taken reordered keyed batchSize
  refine ⟨⟨state.index, embeddings⟩, ?_, remaining, ⟨whole.texts, ?_⟩, ?_⟩
  · rw [SearchState.backfill, filled]
    show some (_, _) = _
    rw [remaining, List.length_take, reordered.length_eq]
  · exact Embedded.backfilled filled
      (fun row member => (List.mem_filter.mp (isPending row member)).1) whole.embedded
  · intro row member
    have ours : row ∈ rowsOf row.itemId state.embeddings := mem_rowsOf.mpr ⟨member, rfl⟩
    have apart : ∀ taken ∈ (order (state.pending owned)).take batchSize,
        taken.itemId ≠ row.itemId := by
      intro taken listed same
      have none_ : noEmbedding state.embeddings taken.itemId = true :=
        (Bool.and_eq_true_iff.mp (List.mem_filter.mp (isPending taken listed)).2).2
      rw [same, noEmbedding_iff] at none_
      rw [none_] at ours
      exact List.not_mem_nil ours
    rw [← kept _ apart] at ours
    exact (mem_rowsOf.mp ours).1

theorem SearchState.Whole.drains (owned : Uuid → Bool) (batchSize : Nat)
    (answers : ∀ piece, (client piece).isSome = true)
    (reorders : ∀ rows, (order rows).Perm rows) : ∀ (runs : Nat) {state : SearchState ν},
    state.Whole → ∃ after, state.backfillRuns client order owned batchSize runs =
        some ((List.range runs).map fun earlier =>
          ⟨min batchSize ((state.pending owned).length - earlier * batchSize),
            (state.pending owned).length - (earlier + 1) * batchSize⟩, after) ∧
      (after.pending owned).length = (state.pending owned).length - runs * batchSize ∧
      ∀ row ∈ state.embeddings, row ∈ after.embeddings
  | 0, state, _ => by
      refine ⟨state, rfl, ?_, fun _ member => member⟩
      rw [Nat.zero_mul, Nat.sub_zero]
  | runs + 1, state, whole => by
      rcases whole.drained owned batchSize answers reorders with
        ⟨middle, first, left, middleWhole, kept⟩
      rcases SearchState.Whole.drains owned batchSize answers reorders runs middleWhole with
        ⟨after, rest, remaining, keptToo⟩
      have later : ∀ count : Nat, (state.pending owned).length - batchSize - count * batchSize =
          (state.pending owned).length - (count + 1) * batchSize := by
        intro count
        rw [Nat.sub_sub, Nat.succ_mul, Nat.add_comm]
      refine ⟨after, ?_, ?_, fun row member => keptToo row (kept row member)⟩
      · rw [SearchState.backfillRuns, first]
        show (do
          let (results, after) ← middle.backfillRuns client order owned batchSize runs
          pure (_ :: results, after)) = _
        rw [rest, List.range_succ_eq_map, List.map_cons, List.map_map, Nat.zero_mul, Nat.sub_zero,
          Nat.zero_add, Nat.one_mul, left]
        simp only [later]
        rfl
      · rw [remaining, left, later]

/-- With a service that answers, each call of `run` takes its batch off what is pending, and says
so, until nothing is left; and no embedding that was there is lost. -/
theorem SearchHistory.backfill_drains [TextExtraction] (owned : Uuid → Bool) (batchSize runs : Nat)
    (history : SearchHistory events state) (answers : ∀ piece, (client piece).isSome = true)
    (reorders : ∀ rows, (order rows).Perm rows) :
    ∃ after, state.backfillRuns client order owned batchSize runs =
        some ((List.range runs).map fun earlier =>
          ⟨min batchSize ((state.pending owned).length - earlier * batchSize),
            (state.pending owned).length - (earlier + 1) * batchSize⟩, after) ∧
      (after.pending owned).length = (state.pending owned).length - runs * batchSize ∧
      ∀ row ∈ state.embeddings, row ∈ after.embeddings :=
  SearchState.Whole.drains owned batchSize answers reorders runs history.whole

end Pending

/-! ## A file that is indexed before there is a service -/

section Indexed

@[reducible] private def wordExtraction : TextExtraction := ⟨id, fun _ => none⟩

attribute [local instance] wordExtraction

/-- "Hi" is uploaded without a service. -/
private def firstUpload : SearchAction Nat :=
  .indexes none 1 [72, 105] none (some "txt")

/-- And with one that gives the length of a text. -/
private def secondUpload : SearchAction Nat :=
  .indexes (some fun piece => some piece.length) 2 [72, 105] none (some "txt")

private def bothIndexed : SearchState Nat :=
  secondUpload.apply (firstUpload.apply ⟨Table.empty, []⟩)

private theorem indexing : ∃ events : List (Event (SearchState Nat) (SearchAction Nat)),
    SearchHistory events bothIndexed := by
  have first : SearchStep firstUpload ⟨Table.empty, []⟩ (firstUpload.apply ⟨Table.empty, []⟩) :=
    ⟨rfl, rfl⟩
  have second : SearchStep secondUpload (firstUpload.apply ⟨Table.empty, []⟩) bothIndexed :=
    ⟨rfl, rfl⟩
  exact ⟨_, (Run.nothing.next first).next second⟩

theorem SearchHistory.backfill_drains_indexing :
    ∃ after, bothIndexed.backfillRuns (fun piece => some piece.length) List.reverse (fun _ => true)
        5 2 = some ([⟨1, 0⟩, ⟨0, 0⟩], after) ∧ (after.pending fun _ => true).length = 0 := by
  rcases indexing with ⟨events, history⟩
  have answers : ∀ piece : String, (some piece.length).isSome = true := fun _ => rfl
  rcases SearchHistory.backfill_drains (fun _ => true) 5 2 history answers List.reverse_perm with
    ⟨after, fills, left, _⟩
  have pending : (bothIndexed.pending fun _ => true).length = 1 := by decide
  rw [pending] at fills left
  exact ⟨after, fills, left⟩

end Indexed

end CloudDrive
