import Baas.Lib.ByteOrder
import Baas.Script.HeapOps

/-! Structured errors: validation, truncation and derivation. -/
namespace Baas.Script

open Program

/-- The end of the longest prefix of at most `limit` bytes that cuts no scalar. -/
def utf8End (text : Bytes) : Nat → Nat
  | 0 => 0
  | limit + 1 => if text[limit + 1]?.any isContinuation then utf8End text limit else limit + 1

/-- The prefix that is kept, and how many bytes were omitted. -/
def truncateUtf8 (text : Bytes) (limit : Nat) : Bytes × Nat :=
  if text.length ≤ limit then (text, 0)
  else (text.take (utf8End text limit), text.length - utf8End text limit)

def requireUtf8Text (text : Text) (message : String) : Except HeapError Unit :=
  if isValidUtf8 text.items then .ok () else fault .invalidUtf8 message

def slashes : List UInt8 := [47, 92, 0]

def SourceLocation.positive (location : SourceLocation) : Bool :=
  location.line != 0 && location.column != 0

def SourceSpan.ordered (span : SourceSpan) : Bool :=
  span.start.positive && span.stop.positive && span.start.byteOffset ≤ span.stop.byteOffset &&
    span.start.line ≤ span.stop.line &&
    !(span.start.line == span.stop.line && span.start.column > span.stop.column)

def validateSourceReference (h : Heap) (source : SourceReference) : Except HeapError Unit :=
  if !isValidUtf8 source.snapshotId.items || !isValidUtf8 source.moduleName.items then
    fault .invalidUtf8 "error source reference is not valid UTF-8"
  else if source.snapshotId.items.isEmpty ||
      source.snapshotId.items.any (fun byte => slashes.contains byte) ||
      h.canonicalModuleKind source.moduleName.items ≠ some .package then
    fault .typeMismatch "error source reference is not canonical"
  else if !source.span.ordered then fault .typeMismatch "error source span is not ordered"
  else .ok ()

def validateOptionalSource (h : Heap) (source : Option SourceReference) :
    Except HeapError Unit :=
  source.toList.forM (validateSourceReference h)

def validateErrorFrame (h : Heap) (frame : ErrorStackFrame) : Except HeapError Unit := do
  if !isValidUtf8 frame.moduleName.items || !isValidUtf8 frame.function.items then
    fault .invalidUtf8 "error stack frame is not valid UTF-8"
  match h.canonicalModuleKind frame.moduleName.items with
  | none => fault .typeMismatch "error stack frame identity is not canonical"
  | some kind => do
    if frame.function.items.isEmpty || (frame.kind == .host) != (kind == .host) then
      fault .typeMismatch "error stack frame identity is not canonical"
    validateOptionalSource h frame.callSource
    validateOptionalSource h frame.definitionSource
    validateOptionalSource h frame.deferSource
    if frame.kind == .host && frame.definitionSource.isSome then
      fault .typeMismatch "host error frame cannot carry a definition source"
    if frame.phase != .cleanup && frame.deferSource.isSome then
      fault .typeMismatch "non-cleanup error frame cannot carry a defer source"
    if frame.phase == .cleanup && frame.deferSource.isNone then
      fault .typeMismatch "cleanup error frame requires a defer source"
    if (frame.kind == .host) != (frame.phase == .host) then
      fault .typeMismatch "error frame kind and phase disagree"

/-- A depth-first visit of the causal graph; a frame is met again, as an exit, when
everything below it is complete. -/
def visitErrorGraph (h : Heap) (visited : Nat) (active complete : List Nat) :
    List (Value × Bool) → Except HeapError Unit
  | [] => .ok ()
  | (value, exit) :: work => do
    let reference ← asHeapRef value
    let metadata ← expected CellData.error? reference h
    if exit then
      visitErrorGraph h visited (active.erase reference.slot) (reference.slot :: complete) work
    else if reference.slot ∈ complete then visitErrorGraph h visited active complete work
    else if visited ≥ h.limits.maxCollectionWork then
      fault .collectionWorkLimitExceeded "structured Error graph validation work limit exceeded"
    else if reference.slot ∈ active then
      fault .cellKindMismatch "cyclic structured Error graph"
    else
      visitErrorGraph h (visited + 1) (reference.slot :: active) complete
        (((metadata.cause.toList ++ metadata.suppressed.items).map (·, false)) ++
          (value, true) :: work)
termination_by work => (h.limits.maxCollectionWork - visited, work.length)

def validateErrorGraph (h : Heap) (root : Value) : Except HeapError Unit :=
  visitErrorGraph h 0 [] [] [(root, false)]

/-- The length of the cause chain. Every step visits a new slot, so a number of steps
above the number of slots is never used up. -/
def walkCauses (h : Heap) : Nat → List Nat → Value → Except HeapError Nat
  | 0, _, _ => fault .cellKindMismatch "cyclic structured Error cause chain"
  | steps + 1, visited, current => do
    let reference ← asHeapRef current
    if reference.slot ∈ visited then
      fault .cellKindMismatch "cyclic structured Error cause chain"
    let metadata ← expected CellData.error? reference h
    match metadata.cause with
    | none => return visited.length + 1
    | some cause => walkCauses h steps (reference.slot :: visited) cause

def causeDepth (h : Heap) (root : Value) : Except HeapError Nat :=
  walkCauses h (h.arena.slots.length + 1) [] root

/-- The work a container of `size` values may still add. -/
def detailRoom (h : Heap) (visited pending size : Nat) : Except HeapError Unit :=
  if size > h.limits.maxCollectionWork - visited ∨
      pending > h.limits.maxCollectionWork - visited - size then
    fault .jsonWorkLimitExceeded "structured Error detail work limit exceeded"
  else .ok ()

def visitDetail (h : Heap) (visited bytes : Nat) (active : List Nat) :
    List (Value × Bool) → Except HeapError Nat
  | [] => .ok bytes
  | (value, exit) :: work =>
    if visited ≥ h.limits.maxCollectionWork then
      fault .jsonWorkLimitExceeded "structured Error detail work limit exceeded"
    else if exit then do
      let reference ← asHeapRef value
      visitDetail h visited bytes (active.erase reference.slot) work
    else match value with
      | .null => do visitDetail h (visited + 1) (← chargedAdd bytes 4) active work
      | .boolean _ => do visitDetail h (visited + 1) (← chargedAdd bytes 5) active work
      | .integer _ | .float _ => do
        visitDetail h (visited + 1) (← chargedAdd bytes 24) active work
      | .ref reference => do
        let cell ← dereference reference h
        match cell.data with
        | .stringCell text =>
          visitDetail h (visited + 1) (← chargedAdd bytes text.items.length) active work
        | .listCell values =>
          if reference.slot ∈ active then fault .jsonCycle "cyclic structured Error detail"
          detailRoom h (visited + 1) work.length values.items.length
          let bytes ← chargedAdd bytes (2 + values.items.length)
          visitDetail h (visited + 1) bytes (reference.slot :: active)
            (values.items.map (·, false) ++ (value, true) :: work)
        | .mapCell entries =>
          if reference.slot ∈ active then fault .jsonCycle "cyclic structured Error detail"
          detailRoom h (visited + 1) work.length entries.items.length
          let bytes ← chargedAdd bytes (2 + entries.items.length)
          let bytes ← (entries.items.reverse.map (fun entry => entry.1.items.length)).foldlM
            chargedAdd bytes
          visitDetail h (visited + 1) bytes (reference.slot :: active)
            (entries.items.map (fun entry => (entry.2, false)) ++ (value, true) :: work)
        | _ => fault .jsonUnsupported "structured Error detail is not JSON-safe"
termination_by work => (h.limits.maxCollectionWork - visited, work.length)

def detailValueBytes (h : Heap) (root : Value) : Except HeapError Nat :=
  visitDetail h 0 0 [] [(root, false)]

/-! The steps of `allocate_error`. -/

def boundMessage (h : Heap) (metadata : ErrorMetadata) : Except HeapError ErrorMetadata := do
  requireUtf8Text metadata.message "error message is not valid UTF-8"
  let (kept, omitted) := truncateUtf8 metadata.message.items h.limits.maxErrorMessageBytes
  return { metadata with
    message := h.platform.text kept
    truncated.messageBytes := saturatingAdd metadata.truncated.messageBytes omitted }

/-- Keeps the innermost frames, then the outermost ones. -/
def boundFrames (limits : HeapLimits) (stack : List ErrorStackFrame) : List ErrorStackFrame :=
  let inner := min limits.maxErrorInnermostFrames limits.maxErrorStackFrames
  let outer := limits.maxErrorStackFrames - inner
  stack.take inner ++ stack.drop (stack.length - outer)

def boundStack (h : Heap) (metadata : ErrorMetadata) : ErrorMetadata :=
  if metadata.stack.items.length > h.limits.maxErrorStackFrames then
    { metadata with
      stack := h.platform.reserve h.limits.maxErrorStackFrames
        (boundFrames h.limits metadata.stack.items)
      truncated.stackFrames := saturatingAdd metadata.truncated.stackFrames
        (metadata.stack.items.length - h.limits.maxErrorStackFrames) }
  else metadata

def validateCause (h : Heap) (cause : Value) : Except HeapError Unit := do
  validateErrorGraph h cause
  if (← causeDepth h cause) > h.limits.maxErrorCauseDepth then
    fault .cellKindMismatch "structured Error cause depth exceeds construction limit"

def acceptSuppressed (h : Heap) (cause : Option Value) (accepted : List Value) (value : Value) :
    Except HeapError (List Value) :=
  if accepted.length < h.limits.maxErrorSuppressed then do
    validateErrorGraph h value
    if cause = some value ∨ value ∈ accepted then
      fault .cellKindMismatch "duplicate causal Error edge"
    return accepted ++ [value]
  else .ok accepted

def boundSuppressed (h : Heap) (metadata : ErrorMetadata) : Except HeapError ErrorMetadata := do
  let accepted ← metadata.suppressed.items.foldlM (acceptSuppressed h metadata.cause) []
  return { metadata with
    suppressed := h.platform.reserve
      (min metadata.suppressed.items.length h.limits.maxErrorSuppressed) accepted
    truncated.suppressedErrors := saturatingAdd metadata.truncated.suppressedErrors
      (metadata.suppressed.items.length - accepted.length) }

/-- The keys met so far and the bytes counted so far. -/
def countDetail (h : Heap) (seen : List Bytes × Nat) (detail : Text × Value) :
    Except HeapError (List Bytes × Nat) := do
  requireUtf8Text detail.1 "error detail key is not valid UTF-8"
  if detail.1.items ∈ seen.1 then
    fault .jsonDuplicateKey "duplicate structured Error detail key"
  let bytes ← chargedAdd seen.2 detail.1.items.length
  let bytes ← chargedAdd bytes (← detailValueBytes h detail.2)
  return (detail.1.items :: seen.1, bytes)

def countContext (bytes : Nat) (text : Text) : Except HeapError Nat := do
  requireUtf8Text text "error context is not valid UTF-8"
  chargedAdd bytes text.items.length

def boundContextText (p : Platform) (value : Option Text) (remaining : Nat) :
    Option Text × Nat :=
  match value with
  | none => (none, remaining)
  | some text =>
    let kept := (truncateUtf8 text.items remaining).1
    (some (p.text kept), remaining - kept.length)

def boundContext (p : Platform) (context : ErrorContext) (limit : Nat) : ErrorContext × Nat :=
  let (taskId, remaining) := boundContextText p context.taskId limit
  let (sessionId, remaining) := boundContextText p context.sessionId remaining
  let (packageId, remaining) := boundContextText p context.packageId remaining
  let (snapshotId, remaining) := boundContextText p context.snapshotId remaining
  let (languageVersion, remaining) := boundContextText p context.languageVersion remaining
  let (correlationId, remaining) := boundContextText p context.correlationId remaining
  (⟨taskId, sessionId, packageId, snapshotId, languageVersion, correlationId⟩, remaining)

/-- Details over the limit are dropped whole; the context then shares the limit in order. -/
def boundDetails (h : Heap) (metadata : ErrorMetadata) : Except HeapError ErrorMetadata := do
  let (_, bytes) ← metadata.details.items.foldlM (countDetail h) ([], 0)
  let bytes ← metadata.context.texts.foldlM countContext bytes
  if bytes > h.limits.maxErrorDetailBytes then
    let (context, remaining) :=
      boundContext h.platform metadata.context h.limits.maxErrorDetailBytes
    return { metadata with
      details := .nil
      context
      truncated.detailsReplaced :=
        metadata.truncated.detailsReplaced || !metadata.details.items.isEmpty
      truncated.detailBytes := saturatingAdd metadata.truncated.detailBytes
        (bytes - (h.limits.maxErrorDetailBytes - remaining)) }
  else return metadata

def prepareError (metadata : ErrorMetadata) (h : Heap) : Except HeapError ErrorMetadata := do
  let metadata ← boundMessage h metadata
  validateOptionalSource h metadata.source
  let metadata := boundStack h metadata
  metadata.stack.items.forM (validateErrorFrame h)
  metadata.cause.toList.forM (validateCause h)
  let metadata ← boundSuppressed h metadata
  boundDetails h metadata

/-- `std::bad_alloc` becomes a memory limit. -/
def convertingBadAlloc {α : Type} (message : String) (body : HeapProgram α) : HeapProgram α :=
  body.catching
    (fun e => raise (if e = .badAlloc then .runtime .memoryLimitExceeded message else e))

def allocateError (metadata : ErrorMetadata) : HeapProgram Value :=
  convertingBadAlloc "structured Error construction allocation failed" do
    native .badAlloc
    let metadata ← inspect (prepareError metadata)
    rooted (visitChildren (.errorCell metadata)) (allocate (.errorCell metadata) false)

def copySource (p : Platform) (source : SourceReference) : SourceReference :=
  { source with
    snapshotId := p.text source.snapshotId.items
    moduleName := p.text source.moduleName.items }

def copyFrame (p : Platform) (frame : ErrorStackFrame) : ErrorStackFrame :=
  { frame with
    moduleName := p.text frame.moduleName.items
    function := p.text frame.function.items
    callSource := frame.callSource.map (copySource p)
    definitionSource := frame.definitionSource.map (copySource p)
    deferSource := frame.deferSource.map (copySource p) }

def copyText (p : Platform) (text : Option Text) : Option Text :=
  text.map (fun text => p.text text.items)

def copyContext (p : Platform) (context : ErrorContext) : ErrorContext :=
  ⟨copyText p context.taskId, copyText p context.sessionId, copyText p context.packageId,
    copyText p context.snapshotId, copyText p context.languageVersion,
    copyText p context.correlationId⟩

/-- The copy that `error_metadata` returns: same contents, fresh capacities. -/
def copyMetadata (p : Platform) (metadata : ErrorMetadata) : ErrorMetadata :=
  { metadata with
    message := p.text metadata.message.items
    source := metadata.source.map (copySource p)
    stack := p.reserve metadata.stack.items.length (metadata.stack.items.map (copyFrame p))
    suppressed := p.reserve metadata.suppressed.items.length metadata.suppressed.items
    details := p.reserve metadata.details.items.length
      (metadata.details.items.map (fun detail => (p.text detail.1.items, detail.2)))
    context := copyContext p metadata.context }

def deriveMetadata (primary : HeapRef) (additions : ErrorDerivation) (h : Heap) :
    Except HeapError ErrorMetadata := do
  if additions.cause = some (.ref primary) ∨ .ref primary ∈ additions.suppressed then
    fault .cellKindMismatch "derived Error cannot reference its primary as cause or suppressed"
  let metadata := copyMetadata h.platform (← expected CellData.error? primary h)
  if additions.cause.isSome ∧ metadata.cause.isSome then
    fault .cellKindMismatch "derived Error cannot replace an existing cause"
  let suppressed := metadata.suppressed.items ++ additions.suppressed
  return { metadata with
    cause := additions.cause.or metadata.cause
    suppressed := h.platform.reserve suppressed.length suppressed }

def deriveError (primary : HeapRef) (additions : ErrorDerivation) : HeapProgram Value :=
  convertingBadAlloc "structured Error derivation allocation failed" do
    native .badAlloc
    let metadata ← inspect (deriveMetadata primary additions)
    allocateError metadata

end Baas.Script
