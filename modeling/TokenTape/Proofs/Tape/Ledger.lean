import Mathlib
import TokenTape.Lexer
import TokenTape.Proofs.Tape.Outcome
/-!
A quota through its whole life. A ledger is a quota with all that is kept under it: tapes that
were handed out, and bytes committed without one. However packing, committing and dropping
follow each other, the committed bytes are those that are kept, and a packing run never has
more than the limit in use, not even while scratch memory and its copy exist together. Releases
of any size can spoil the first of these, but not the second.
-/
namespace TokenTape

namespace Scanner
variable {scanner after : Scanner} {marks : Bool} {quota : Quota}

/-- What packing leaves of a quota: it takes the size of a tape that is handed out, and nothing
if there is none. -/
theorem pack_quota (scanner : Scanner) (marks : Bool) (quota : Quota) :
    (scanner.pack marks quota).quota =
      match (scanner.pack marks quota).result with
      | .ok tape => ⟨quota.limit, quota.committed + tape.size⟩
      | .error _ => quota := by
  match failure : scanner.scan.failure with
  | none =>
    obtain ⟨written, full⟩ := pack_of_complete marks quota scanner failure
    by_cases twice :
        2 * (Located.encodeAll marks scanner.line scanner.scan.tokens).length ≤ quota.free
    · rw [written twice]
      rfl
    · obtain ⟨⟨located, -, told⟩, kept⟩ := full (Nat.lt_of_not_le twice)
      rw [told, kept]
  | some diagnosis =>
    obtain ⟨failed, full⟩ := pack_of_failure marks quota scanner failure
    by_cases fits : scanner.scan.tokens = [] ∨
        (Located.encodeAll marks scanner.line scanner.scan.tokens).length < quota.free
    · rw [(failed fits).1, (failed fits).2]
    · obtain ⟨⟨located, -, told⟩, kept⟩ := full fits
      rw [told, kept]

end Scanner

/-! ## The moments of a packing run -/

/-- Scratch memory at some moment while pieces are written to it, from before the first piece to
behind the last one that fits. -/
inductive Scratch.Filling : Scratch → List (List UInt8) → Scratch → Prop
  | now {scratch : Scratch} {pieces : List (List UInt8)} : Filling scratch pieces scratch
  | later {scratch next moment : Scratch} {piece : List UInt8} {pieces : List (List UInt8)}
      (fits : scratch.put? piece = some next) (filling : Filling next pieces moment) :
      Filling scratch (piece :: pieces) moment

/-- Scratch memory at some moment while the remaining tokens are written to it. -/
inductive Scanner.Writing (marks : Bool) : Nat → Scratch → Scanner → Scratch → Prop
  | before {line : Nat} {scratch : Scratch} {scanner : Scanner} :
      Writing marks line scratch scanner scratch
  | inside {line : Nat} {scratch moment : Scratch} {scanner after : Scanner} {token : Token}
      (taken : scanner.next = (.ok token, after))
      (filling : scratch.Filling (token.pieces (if marks then after.tokenLine - line else 0)) moment) :
      Writing marks line scratch scanner moment
  | later {line : Nat} {scratch next moment : Scratch} {scanner after : Scanner} {token : Token}
      (taken : scanner.next = (.ok token, after))
      (fits : scratch.putAll? (token.pieces (if marks then after.tokenLine - line else 0)) =
        some next)
      (going : token.isEnd = false)
      (writing : Writing marks (max line after.tokenLine) next after moment) :
      Writing marks line scratch scanner moment

/-- Scratch memory and quota at some moment of a packing run: while tokens are written, nothing
has been committed; in the end the copy is committed, and the scratch memory still exists. -/
inductive Scanner.Packs (marks : Bool) (quota : Quota) (scanner : Scanner) : Scratch → Quota → Prop
  | writing {moment : Scratch}
      (writing : scanner.Writing marks scanner.line (.empty quota.free) moment) :
      Packs marks quota scanner moment quota
  | copied {scratch : Scratch} {after : Scanner} {tape : Tape}
      (wrote : scanner.writeFrom marks scanner.line (.empty quota.free) = (.ok scratch, after))
      (packed : (scanner.pack marks quota).result = .ok tape) :
      Packs marks quota scanner scratch (scanner.pack marks quota).quota

namespace Scratch

/-- Scratch memory holds no more than it may. -/
def Within (scratch : Scratch) : Prop := scratch.bytes.size ≤ scratch.capacity

theorem put?_within {scratch next : Scratch} {piece : List UInt8}
    (fits : scratch.put? piece = some next) : next.Within := by
  obtain ⟨written, kept⟩ := bytes_of_put? fits
  have size := congrArg List.length written
  rw [put?_eq, Option.ite_none_right_eq_some] at fits
  have room : piece.length < scratch.capacity - scratch.bytes.size := fits.1
  rw [List.length_append, Array.length_toList, Array.length_toList] at size
  rw [Within, kept]
  omega

/-- Filling keeps the capacity and stays within it. -/
theorem Filling.within {scratch moment : Scratch} {pieces : List (List UInt8)}
    (filling : scratch.Filling pieces moment) (within : scratch.Within) :
    moment.Within ∧ moment.capacity = scratch.capacity := by
  induction filling with
  | now => exact ⟨within, rfl⟩
  | later fits _ ih =>
    obtain ⟨later, same⟩ := ih (put?_within fits)
    exact ⟨later, same.trans (bytes_of_put? fits).2⟩

/-- What is written in the end was there at a moment. -/
theorem filling_of_putAll? {scratch next : Scratch} {pieces : List (List UInt8)}
    (fits : scratch.putAll? pieces = some next) : scratch.Filling pieces next := by
  induction pieces generalizing scratch with
  | nil =>
    cases fits
    exact .now
  | cons piece pieces ih =>
    simp only [putAll?] at fits
    split at fits
    · next middle first => exact .later first (ih fits)
    · cases fits

end Scratch

namespace Scanner
variable {scanner after : Scanner} {marks : Bool} {line : Nat} {scratch moment : Scratch}

theorem Writing.within (writing : scanner.Writing marks line scratch moment)
    (within : scratch.Within) : moment.Within ∧ moment.capacity = scratch.capacity := by
  induction writing with
  | before => exact ⟨within, rfl⟩
  | inside _ filling => exact filling.within within
  | later _ fits _ _ ih =>
    obtain ⟨filled, same⟩ := (Scratch.filling_of_putAll? fits).within within
    obtain ⟨later, kept⟩ := ih filled
    exact ⟨later, kept.trans same⟩

/-- A writing that succeeds ends in one of its moments. -/
theorem writing_of_writeFrom
    (wrote : scanner.writeFrom marks line scratch = (.ok moment, after)) :
    scanner.Writing marks line scratch moment := by
  induction scanner using scan_induction generalizing line scratch with
  | failed scanner diagnosis failed taken =>
    rw [writeFrom_of_failed marks line scratch taken] at wrote
    cases wrote
  | ended scanner token behind taken ended =>
    rw [writeFrom_of_taken marks line scratch taken] at wrote
    split at wrote
    · cases wrote
    · next next fits =>
      rw [if_pos ended] at wrote
      cases wrote
      exact .inside taken (Scratch.filling_of_putAll? fits)
  | going scanner token behind taken going ih =>
    rw [writeFrom_of_taken marks line scratch taken] at wrote
    split at wrote
    · cases wrote
    · next next fits =>
      simp only [going, Bool.false_eq_true, if_false] at wrote
      exact .later taken fits going (ih wrote)

/-- A tape that is handed out has the bytes that were written. -/
theorem size_of_written {quota : Quota} {tape : Tape}
    (wrote : scanner.writeFrom marks scanner.line (.empty quota.free) = (.ok scratch, after))
    (packed : (scanner.pack marks quota).result = .ok tape) : scratch.bytes.size = tape.size := by
  unfold pack at packed
  rw [wrote] at packed
  dsimp only at packed
  split at packed
  · cases packed
  · split at packed
    · cases packed
    · cases packed
      rw [Tape.size, Array.length_toList]

/-- No moment of a packing run goes beyond the limit, if there was nothing beyond it before: the
scratch memory was given what was free, and the copy is made only if it fits a second time. -/
theorem Packs.bounded {quota held : Quota} (kept : quota.committed ≤ quota.limit)
    (packs : scanner.Packs marks quota moment held) :
    moment.bytes.size ≤ moment.capacity ∧ held.committed + moment.bytes.size ≤ quota.limit := by
  have free : quota.free = quota.limit - quota.committed := rfl
  have none : (Scratch.empty quota.free).Within := Nat.zero_le _
  rcases packs with writing | ⟨wrote, packed⟩
  · obtain ⟨within, capacity⟩ := writing.within none
    have room : moment.bytes.size ≤ quota.free := by
      rw [show quota.free = moment.capacity from capacity.symm]
      exact within
    exact ⟨within, by omega⟩
  · have within := ((writing_of_writeFrom wrote).within none).1
    have size := size_of_written wrote packed
    have twice := (pack_eq_ok_iff.mp packed).2.2
    have taken := pack_quota scanner marks quota
    rw [packed] at taken
    rw [taken]
    refine ⟨within, ?_⟩
    dsimp only
    omega

end Scanner

/-! ## Whole lives -/

/-- A quota with the bytes of all that is kept under it. -/
structure Ledger where
  quota : Quota
  kept : List (List UInt8)
  deriving DecidableEq

namespace Ledger

/-- What happens to a ledger. -/
inductive Event where
  /-- What a scanner has left is packed. -/
  | pack (marks : Bool) (scanner : Scanner)
  /-- A lexer that packs under the quota is given a source unit. -/
  | analyse (settings : Settings) (reserved : ReservedWords) (vocabulary : Vocabulary)
      (file text : String) (source : LineSource)
  /-- Bytes are committed that are no tape. -/
  | commit (bytes : List UInt8)
  /-- What stands at a position among the things kept is given up, and its bytes with it. -/
  | drop (index : Nat)
  /-- Bytes are released, and nothing is given up for them. -/
  | release (size : Nat)

/-- Whether bytes are released that may still be kept. -/
def Event.isLoose : Event → Bool
  | release _ => true
  | _ => false

/-- A ledger under which nothing is kept. -/
def ofLimit (limit : Nat) : Ledger := ⟨.ofLimit limit, []⟩

/-- The ledger behind a packing run: a tape is kept if one was handed out. -/
def record (ledger : Ledger) (quota : Quota) : Except Diagnosis Tape → Ledger
  | .ok tape => ⟨quota, tape.bytes :: ledger.kept⟩
  | .error _ => ⟨quota, ledger.kept⟩

/-- The ledger after an event. -/
def handle (ledger : Ledger) : Event → Ledger
  | .pack marks scanner =>
    let packing := scanner.pack marks ledger.quota
    ledger.record packing.quota packing.result
  | .analyse settings reserved vocabulary file text source =>
    let lexer : Lexer := ⟨settings, reserved, ledger.quota⟩
    let analysis := lexer.analyse vocabulary file text source
    ledger.record analysis.lexer.quota analysis.result
  | .commit bytes =>
    match ledger.quota.commit? bytes.length with
    | some quota => ⟨quota, bytes :: ledger.kept⟩
    | none => ledger
  | .drop index =>
    match ledger.kept[index]? with
    | some bytes => ⟨ledger.quota.release bytes.length, ledger.kept.eraseIdx index⟩
    | none => ledger
  | .release size => ⟨ledger.quota.release size, ledger.kept⟩

/-- The ledger after one event upon the other. -/
def handleAll (ledger : Ledger) (events : List Event) : Ledger := events.foldl handle ledger

/-- How many bytes are kept. -/
def weight (ledger : Ledger) : Nat := (ledger.kept.map List.length).sum

/-- All that can happen to a ledger: something that fits is taken in, something kept is given up,
bytes are released for nothing, or there is no change at all. -/
theorem handle_cases {ledger : Ledger} (bounded : ledger.quota.committed ≤ ledger.quota.limit)
    (event : Event) :
    (∃ bytes, ledger.quota.committed + bytes.length ≤ ledger.quota.limit ∧
      ledger.handle event = ⟨⟨ledger.quota.limit, ledger.quota.committed + bytes.length⟩,
        bytes :: ledger.kept⟩) ∨
    (∃ index bytes, ledger.kept[index]? = some bytes ∧
      ledger.handle event = ⟨ledger.quota.release bytes.length, ledger.kept.eraseIdx index⟩) ∨
    (∃ size, event = .release size ∧
      ledger.handle event = ⟨ledger.quota.release size, ledger.kept⟩) ∨
    ledger.handle event = ledger := by
  have packed (scanner : Scanner) (marks : Bool) :
      let packing := scanner.pack marks ledger.quota
      (∃ bytes, ledger.quota.committed + bytes.length ≤ ledger.quota.limit ∧
        ledger.record packing.quota packing.result =
          ⟨⟨ledger.quota.limit, ledger.quota.committed + bytes.length⟩, bytes :: ledger.kept⟩) ∨
      ledger.record packing.quota packing.result = ledger := by
    intro packing
    have taken : packing.quota = _ := scanner.pack_quota marks ledger.quota
    match outcome : packing.result with
    | .ok tape =>
      have twice := (Scanner.pack_eq_ok_iff.mp outcome).2.2
      have free : ledger.quota.free = ledger.quota.limit - ledger.quota.committed := rfl
      rw [outcome] at taken
      refine Or.inl ⟨tape.bytes, ?_, by rw [taken]; rfl⟩
      have size : tape.size = tape.bytes.length := rfl
      omega
    | .error diagnosis =>
      rw [outcome] at taken
      exact Or.inr (by rw [taken]; rfl)
  cases event with
  | pack marks scanner => exact (packed scanner marks).imp_right fun same => .inr (.inr same)
  | analyse settings reserved vocabulary file text source =>
    exact (packed (.start reserved vocabulary file text source) settings.lineMarks).imp_right
      fun same => .inr (.inr same)
  | commit bytes =>
    match accepted : ledger.quota.commit? bytes.length with
    | some quota =>
      obtain ⟨fits, rfl⟩ := Quota.commit?_eq_some_iff.mp accepted
      exact Or.inl ⟨bytes, fits, by simp only [handle, accepted]⟩
    | none => exact .inr (.inr (.inr (by simp only [handle, accepted])))
  | drop index =>
    match held : ledger.kept[index]? with
    | some bytes => exact .inr (.inl ⟨index, bytes, held, by simp only [handle, held]⟩)
    | none => exact .inr (.inr (.inr (by simp only [handle, held])))
  | release size => exact .inr (.inr (.inl ⟨size, rfl, rfl⟩))

/-- The limit stays, and no event brings more under it than it allows. -/
theorem handle_bounded {ledger : Ledger} (bounded : ledger.quota.committed ≤ ledger.quota.limit)
    (event : Event) :
    (ledger.handle event).quota.limit = ledger.quota.limit ∧
      (ledger.handle event).quota.committed ≤ ledger.quota.limit := by
  rcases handle_cases bounded event with
    ⟨bytes, fits, same⟩ | ⟨index, bytes, -, same⟩ | ⟨size, -, same⟩ | same
  · rw [same]
    exact ⟨rfl, fits⟩
  · rw [same]
    exact ⟨rfl, Nat.le_trans (Nat.sub_le _ _) bounded⟩
  · rw [same]
    exact ⟨rfl, Nat.le_trans (Nat.sub_le _ _) bounded⟩
  · rw [same]
    exact ⟨rfl, bounded⟩

theorem length_le_weight {ledger : Ledger} {bytes : List UInt8} (held : bytes ∈ ledger.kept) :
    bytes.length ≤ ledger.weight :=
  List.le_sum_of_mem (List.mem_map_of_mem held)

/-- As long as nothing is released that may still be kept, what is committed is what is kept. -/
theorem handle_exact {ledger : Ledger} (bounded : ledger.quota.committed ≤ ledger.quota.limit)
    (exact : ledger.quota.committed = ledger.weight) {event : Event}
    (firm : event.isLoose = false) :
    (ledger.handle event).quota.committed = (ledger.handle event).weight := by
  rcases handle_cases bounded event with
    ⟨bytes, -, same⟩ | ⟨index, bytes, held, same⟩ | ⟨size, rfl, -⟩ | same
  · rw [same]
    simp only [weight, List.map_cons, List.sum_cons, exact]
    exact Nat.add_comm _ _
  · obtain ⟨inside, rfl⟩ := List.getElem?_eq_some_iff.mp held
    have short : index < (ledger.kept.map List.length).length := by rwa [List.length_map]
    have left := List.CommMonoid.add_sum_eraseIdx short
    rw [List.getElem_map, List.eraseIdx_map] at left
    rw [same]
    simp only [weight, Quota.release] at exact ⊢
    omega
  · cases firm
  · rw [same, exact]

theorem handleAll_bounded {ledger : Ledger} (bounded : ledger.quota.committed ≤ ledger.quota.limit)
    (events : List Event) :
    (ledger.handleAll events).quota.limit = ledger.quota.limit ∧
      (ledger.handleAll events).quota.committed ≤ ledger.quota.limit := by
  induction events generalizing ledger with
  | nil => exact ⟨rfl, bounded⟩
  | cons event events ih =>
    obtain ⟨limit, first⟩ := handle_bounded bounded event
    rw [← limit] at first
    have later := ih first
    rw [limit] at later
    exact later

theorem handleAll_exact {ledger : Ledger} (bounded : ledger.quota.committed ≤ ledger.quota.limit)
    (exact : ledger.quota.committed = ledger.weight) {events : List Event}
    (firm : ∀ event ∈ events, event.isLoose = false) :
    (ledger.handleAll events).quota.committed = (ledger.handleAll events).weight := by
  induction events generalizing ledger with
  | nil => exact exact
  | cons event events ih =>
    obtain ⟨limit, first⟩ := handle_bounded bounded event
    rw [← limit] at first
    exact ih first (handle_exact bounded exact (firm event List.mem_cons_self))
      fun later held => firm later (List.mem_cons_of_mem event held)

/-- The books of a quota. Whatever happens, committed and free bytes make up the limit, a refused
commit changes nothing, and at each moment of a packing run the scratch memory stays within what
it was given and within what the limit leaves. If bytes are released only for what is given up,
the committed bytes are those that are kept, and each thing kept can be given up in full. -/
theorem books_balance (limit : Nat) (events : List Event) :
    let ledger := (ofLimit limit).handleAll events
    let quota := ledger.quota
    (quota.limit = limit ∧ quota.committed + quota.free = limit ∧
      (∀ bytes, quota.commit? bytes.length = none → ledger.handle (.commit bytes) = ledger) ∧
      ∀ marks scanner moment held, Scanner.Packs marks quota scanner moment held →
        moment.bytes.size ≤ moment.capacity ∧ held.committed + moment.bytes.size ≤ limit) ∧
    ((∀ event ∈ events, event.isLoose = false) →
      quota.committed = ledger.weight ∧
        ∀ bytes ∈ ledger.kept,
          (quota.release bytes.length).committed + bytes.length = quota.committed) := by
  intro ledger quota
  have none : (ofLimit limit).quota.committed ≤ (ofLimit limit).quota.limit := Nat.zero_le limit
  obtain ⟨same, bounded⟩ := handleAll_bounded none events
  have same : quota.limit = limit := same
  have bounded : quota.committed ≤ limit := bounded
  refine ⟨⟨same, ?_, ?_, ?_⟩, ?_⟩
  · simp only [Quota.free, same]
    omega
  · intro bytes refused
    simp only [handle, quota] at refused ⊢
    rw [refused]
  · intro marks scanner moment held packs
    have inUse := packs.bounded (by rw [same]; exact bounded)
    rwa [same] at inUse
  · intro firm
    have exact : quota.committed = ledger.weight := handleAll_exact none rfl firm
    refine ⟨exact, ?_⟩
    intro bytes held
    have le := length_le_weight held
    rw [← exact] at le
    exact Nat.sub_add_cancel le

end Ledger
end TokenTape
