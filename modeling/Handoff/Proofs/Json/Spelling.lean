/-
# Handoff.Proofs.Json.Spelling — values and their tokens

Whatever the layout of a text, its tokens are the same: those that spell the value out. The reader runs over
them with a stack of open containers, and where a value is due it does one thing with the tokens of a value: it
hands the value to the innermost container and leaves the rest of the stack alone. That needs the nesting
below the open containers to fit the limit, and conversely whatever is read fits it.
-/

import Handoff.Json.Reader
import Handoff.Proofs.Json.Bare
import Handoff.Proofs.Json.Codec
import Handoff.Proofs.Json.Parts

namespace Handoff.Json

/-! ## Spelling -/

/-- Lists of tokens between two marks, with commas between them. -/
def enclosed (opening closing : Char) (parts : List (List Token)) : List Token :=
  .mark opening :: [Token.mark ','].intercalate parts ++ [.mark closing]

mutual

/-- The tokens of a value. -/
def spelling : Json → List Token
  | .array items => enclosed '[' ']' (spellingItems items)
  | .object members => enclosed '\x7b' '\x7d' (spellingMembers members)
  | .text value => [.text value]
  | .null => [.scalar .null]
  | .bool value => [.scalar (.bool value)]
  | .number value => [.scalar (.number value)]

def spellingItems : List Json → List (List Token)
  | [] => []
  | item :: items => item.spelling :: spellingItems items

def spellingMembers : List (String × Json) → List (List Token)
  | [] => []
  | (key, value) :: members => (.text key :: .mark ':' :: value.spelling) :: spellingMembers members

end

theorem spelling_array (items : List Json) :
    (array items).spelling = enclosed '[' ']' (items.map spelling) := by
  rw [spelling]
  congr 1
  induction items with
  | nil => rw [spellingItems, List.map_nil]
  | cons item items ih => rw [spellingItems, List.map_cons, ih]

/-- The tokens of a member. -/
def spellingMember (m : String × Json) : List Token :=
  .text m.1 :: .mark ':' :: m.2.spelling

theorem spelling_object (members : List (String × Json)) :
    (object members).spelling = enclosed '\x7b' '\x7d' (members.map spellingMember) := by
  rw [spelling]
  congr 1
  induction members with
  | nil => rw [spellingMembers, List.map_nil]
  | cons m members ih => rw [spellingMembers, List.map_cons, ih]; rfl

/-! ## Reading what is spelt -/

/-- The reader stands where a value is due. -/
def Expect.AwaitsValue : Expect → Prop
  | .value => True
  | .firstItem => True
  | _ => False

theorem awaitsValue_value : Expect.value.AwaitsValue :=
  trivial

theorem awaitsValue_firstItem : Expect.firstItem.AwaitsValue :=
  trivial

/-- The reader stands where a key is due. -/
def Expect.AwaitsKey : Expect → Prop
  | .firstKey => True
  | .nextKey => True
  | _ => False

theorem awaitsKey_firstKey : Expect.firstKey.AwaitsKey :=
  trivial

theorem awaitsKey_nextKey : Expect.nextKey.AwaitsKey :=
  trivial

section Stack

variable {limit : Nat} {frames : List Frame} {expect : Expect}

/-- Where a value is due, reading these tokens hands over this value, if there is room for it. -/
def Delivers (limit : Nat) (tokens : List Token) (v : Json) : Prop :=
  ∀ frames expect, Expect.AwaitsValue expect → frames.length + v.depth ≤ limit →
    tokens.foldlM (step limit) ⟨frames, expect⟩ = .ok (deliver v frames)

/-- Every token but the end of an array is read as the beginning of a value. -/
theorem step_of_awaitsValue (h : expect.AwaitsValue) {token : Token} (hne : token ≠ .mark ']') :
    step limit ⟨frames, expect⟩ token = beginValue limit frames token := by
  cases expect with
  | value => rfl
  | firstItem =>
    unfold step
    split <;> simp_all
  | _ => exact absurd h id

theorem openFrame_of_lt (h : frames.length < limit) (frame : Frame) :
    openFrame limit frame expect frames = .ok ⟨frame :: frames, expect⟩ :=
  if_pos h

/-- Parts with commas between them. In a state that stands for what was read so far, a part is read by adding
one thing to that, and the comma behind it leads to such a state again. -/
theorem foldlM_separated (spell : α → List Token) (stands : List α → State → Prop) (read : List α → State)
    (hcomma : ∀ done, ∃ s, step limit (read done) (.mark ',') = .ok s ∧ stands done s) {things : List α}
    (hspell : ∀ a ∈ things, ∀ done s, stands done s →
      (spell a).foldlM (step limit) s = .ok (read (a :: done)))
    (hne : things ≠ []) {done : List α} {s : State} (hs : stands done s) :
    ([Token.mark ','].intercalate (things.map spell)).foldlM (step limit) s =
      .ok (read (things.reverse ++ done)) := by
  induction things generalizing done s with
  | nil => exact absurd rfl hne
  | cons a things ih =>
    obtain ⟨ha, hrest⟩ := List.forall_mem_cons.mp hspell
    have hfirst := ha done s hs
    cases things with
    | nil =>
      rw [List.map_singleton, List.intercalate_singleton]
      exact hfirst
    | cons b things =>
      -- The comma behind the first part leads to a state that stands for that part too.
      obtain ⟨next, hnext, hstands⟩ := hcomma (a :: done)
      have hsecond := ih hrest (List.cons_ne_nil b things) hstands
      rw [List.map_cons, List.map_cons, List.intercalate_cons_cons, List.append_assoc, List.foldlM_append,
        hfirst, List.reverse_cons (a := a), List.append_assoc]
      show (step limit (read (a :: done)) (.mark ',') >>= _) = _
      rw [hnext]
      exact hsecond

/-- The parts between two marks. The closing mark ends them after any part, and at once if there is none. -/
theorem foldlM_enclosed (opening closing : Char) (spell : α → List Token) (stands : List α → State → Prop)
    (read last : List α → State) {s first : State} {things : List α}
    (hopen : step limit s (.mark opening) = .ok first) (hfirst : stands [] first)
    (hempty : step limit first (.mark closing) = .ok (last []))
    (hcomma : ∀ done, ∃ s, step limit (read done) (.mark ',') = .ok s ∧ stands done s)
    (hclose : ∀ done, step limit (read done) (.mark closing) = .ok (last done))
    (hspell : ∀ a ∈ things, ∀ done s, stands done s →
      (spell a).foldlM (step limit) s = .ok (read (a :: done))) :
    (enclosed opening closing (things.map spell)).foldlM (step limit) s = .ok (last things.reverse) := by
  rw [enclosed, List.cons_append, List.foldlM_cons, hopen]
  show ([Token.mark ','].intercalate (things.map spell) ++ [Token.mark closing]).foldlM (step limit) first = _
  by_cases hne : things = []
  · subst hne
    show (step limit first (.mark closing) >>= pure) = _
    rw [hempty]
    rfl
  · rw [List.foldlM_append, foldlM_separated spell stands read hcomma hspell hne hfirst, List.append_nil]
    show (step limit (read things.reverse) (.mark closing) >>= pure) = _
    rw [hclose]
    rfl

/-- The tokens of an array deliver it if those of its items do. Its items lie on its frame, last one first. -/
theorem delivers_array {items : List Json} (h : ∀ item ∈ items, Delivers limit item.spelling item) :
    Delivers limit (array items).spelling (array items) := by
  intro frames expect hexpect hroom
  have hopen : step limit ⟨frames, expect⟩ (.mark '[') = .ok ⟨.array [] :: frames, .firstItem⟩ := by
    rw [step_of_awaitsValue hexpect (by simp)]
    exact openFrame_of_lt (by rw [depth] at hroom; omega) _
  have hitems : ∀ item ∈ items, ∀ done s,
      (∃ expect, Expect.AwaitsValue expect ∧ s = ⟨.array done :: frames, expect⟩) →
        item.spelling.foldlM (step limit) s = .ok ⟨.array (item :: done) :: frames, .afterItem⟩ := by
    rintro item hitem done _ ⟨expect, hexpect, rfl⟩
    have hlt : item.depth < (array items).depth := depth_lt_of_mem_parts hitem
    have hitemRoom : frames.length + 1 + item.depth ≤ limit := by omega
    exact h item hitem (.array done :: frames) expect hexpect hitemRoom
  -- The frame stands for the items on it wherever a value is due.
  have hdelivered := foldlM_enclosed '[' ']' spelling
    (fun done s => ∃ expect, Expect.AwaitsValue expect ∧ s = ⟨.array done :: frames, expect⟩)
    (fun done => ⟨.array done :: frames, .afterItem⟩) (fun done => deliver (.array done.reverse) frames)
    hopen ⟨_, awaitsValue_firstItem, rfl⟩ rfl (fun done => ⟨_, rfl, _, awaitsValue_value, rfl⟩)
    (fun done => rfl) hitems
  rw [List.reverse_reverse] at hdelivered
  rw [spelling_array]
  exact hdelivered

/-- A member is read where a key is due, and goes onto the frame of its object. -/
theorem foldlM_member {m : String × Json} (h : Delivers limit m.2.spelling m.2)
    (hroom : frames.length + 1 + m.2.depth ≤ limit) (hexpect : expect.AwaitsKey)
    (done : List (String × Json)) (key : String) :
    (spellingMember m).foldlM (step limit) ⟨.object done key :: frames, expect⟩ =
      .ok ⟨.object (m :: done) m.1 :: frames, .afterMember⟩ := by
  have hkey : step limit ⟨.object done key :: frames, expect⟩ (.text m.1) =
      .ok ⟨.object done m.1 :: frames, .colon⟩ := by
    cases expect with
    | firstKey => rfl
    | nextKey => rfl
    | _ => exact absurd hexpect id
  rw [spellingMember, List.foldlM_cons, hkey]
  exact h (.object done m.1 :: frames) .value awaitsValue_value hroom

/-- The key of the member that was read last. -/
def lastKey (done : List (String × Json)) : String :=
  (done.head?.map (·.1)).getD ""

/-- The tokens of an object deliver it if those of its members' values do. -/
theorem delivers_object {members : List (String × Json)}
    (h : ∀ m ∈ members, Delivers limit m.2.spelling m.2) :
    Delivers limit (object members).spelling (object members) := by
  intro frames expect hexpect hroom
  have hopen : step limit ⟨frames, expect⟩ (.mark '\x7b') = .ok ⟨.object [] "" :: frames, .firstKey⟩ := by
    rw [step_of_awaitsValue hexpect (by simp)]
    exact openFrame_of_lt (by rw [depth] at hroom; omega) _
  have hmembers : ∀ m ∈ members, ∀ done s,
      (∃ expect, Expect.AwaitsKey expect ∧ s = ⟨.object done (lastKey done) :: frames, expect⟩) →
        (spellingMember m).foldlM (step limit) s =
          .ok ⟨.object (m :: done) (lastKey (m :: done)) :: frames, .afterMember⟩ := by
    rintro m hm done _ ⟨expect, hexpect, rfl⟩
    have hlt : m.2.depth < (object members).depth := depth_lt_of_mem_parts (List.mem_map_of_mem hm)
    have hmemberRoom : frames.length + 1 + m.2.depth ≤ limit := by omega
    exact foldlM_member (h m hm) hmemberRoom hexpect done (lastKey done)
  -- The key on the frame stays behind when its member is complete, so it is that of the last member.
  have hdelivered := foldlM_enclosed '\x7b' '\x7d' spellingMember
    (fun done s => ∃ expect, Expect.AwaitsKey expect ∧ s = ⟨.object done (lastKey done) :: frames, expect⟩)
    (fun done => ⟨.object done (lastKey done) :: frames, .afterMember⟩)
    (fun done => deliver (.object done.reverse) frames)
    hopen ⟨_, awaitsKey_firstKey, rfl⟩ rfl (fun done => ⟨_, rfl, _, awaitsKey_nextKey, rfl⟩)
    (fun done => rfl) hmembers
  rw [List.reverse_reverse] at hdelivered
  rw [spelling_object]
  exact hdelivered

end Stack

/-- **Reading what is spelt.** Wherever a value is due, the tokens of a value deliver the value. -/
theorem delivers_spelling (limit : Nat) (v : Json) : Delivers limit v.spelling v := by
  induction v using induction_on_parts with
  | step v ih =>
    cases v with
    | array items => exact delivers_array ih
    | object members => exact delivers_object fun m hm => ih m.2 (List.mem_map_of_mem hm)
    | null | bool | number | text =>
      intro frames expect hexpect hroom
      rw [spelling, List.foldlM_cons, step_of_awaitsValue hexpect (by simp)]
      rfl

theorem ofTokens_spelling {limit : Nat} {v : Json} (h : v.depth ≤ limit) :
    ofTokens limit v.spelling = .ok v := by
  rw [ofTokens, delivers_spelling limit v [] .value awaitsValue_value (by simpa using h)]
  rfl

/-! ## What is read fits -/

/-- A scalar needs no room. -/
def Token.Fits (token : Token) : Prop :=
  ∀ v, token = .scalar v → ∀ n, FitsIn Number.InRange n v

/-- The values that an open container holds so far. -/
def Frame.values : Frame → List Json
  | .array items => items
  | .object members _ => members.map (·.2)

/-- What an open container holds fits into the room that the containers around it leave. -/
def FramesFit (limit : Nat) : List Frame → Prop
  | [] => True
  | frame :: frames =>
    frames.length < limit ∧ (∀ v ∈ frame.values, FitsIn Number.InRange (limit - frames.length - 1) v) ∧
      FramesFit limit frames

structure State.Fits (limit : Nat) (s : State) : Prop where
  frames : FramesFit limit s.frames
  result : ∀ v, s.expect = .nothing v → FitsIn Number.InRange limit v

section Fitting

variable {limit : Nat} {frames : List Frame} {s : State}

theorem fits_deliver {v : Json} (hframes : FramesFit limit frames)
    (h : FitsIn Number.InRange (limit - frames.length) v) : (deliver v frames).Fits limit := by
  cases frames with
  | nil => exact ⟨trivial, fun _ heq => by cases heq; exact h⟩
  | cons frame frames =>
    obtain ⟨hroom, hvalues, hrest⟩ := hframes
    have hv : FitsIn Number.InRange (limit - frames.length - 1) v := h
    cases frame with
    | array items =>
      exact ⟨⟨hroom, List.forall_mem_cons.mpr ⟨hv, hvalues⟩, hrest⟩, fun _ heq => nomatch heq⟩
    | object members key =>
      exact ⟨⟨hroom, List.forall_mem_cons.mpr ⟨hv, hvalues⟩, hrest⟩, fun _ heq => nomatch heq⟩

theorem fits_openFrame {frame : Frame} {expect : Expect} (hframes : FramesFit limit frames)
    (hempty : frame.values = []) (hexpect : ∀ v, expect ≠ .nothing v)
    (h : openFrame limit frame expect frames = .ok s) : s.Fits limit := by
  unfold openFrame at h
  split at h
  next hlt =>
    cases h
    exact ⟨⟨hlt, by simp [hempty], hframes⟩, fun v heq => absurd heq (hexpect v)⟩
  next => cases h

theorem fits_beginValue {token : Token} (hframes : FramesFit limit frames) (htoken : token.Fits)
    (h : beginValue limit frames token = .ok s) : s.Fits limit := by
  cases token with
  | scalar v =>
    cases h
    exact fits_deliver hframes (htoken v rfl _)
  | text value =>
    cases h
    exact fits_deliver hframes (fitsIn_text value)
  | mark c =>
    rw [beginValue] at h
    split at h
    · exact fits_openFrame hframes rfl (by simp) h
    · split at h
      · exact fits_openFrame hframes rfl (by simp) h
      · cases h

/-- A container whose parts lie on its frame fits where the frame was opened. -/
theorem fits_deliver_container {frame : Frame} {v : Json} (h : FramesFit limit (frame :: frames))
    (hcontainer : ∀ k, v ≠ .number k) (hparts : v.parts ⊆ frame.values) :
    (deliver v frames).Fits limit := by
  obtain ⟨hroom, hvalues, hrest⟩ := h
  have hsucc : limit - frames.length = limit - frames.length - 1 + 1 := by omega
  refine fits_deliver hrest ?_
  rw [hsucc]
  exact fitsIn_of_parts hcontainer fun p hp => hvalues p (hparts hp)

theorem fits_closeFrame {c : Char} (hframes : FramesFit limit frames) (h : closeFrame c frames = .ok s) :
    s.Fits limit := by
  unfold closeFrame at h
  split at h
  next items frames =>
    split at h
    next =>
      cases h
      exact fits_deliver_container hframes (fun k heq => nomatch heq) fun _ hitem => List.mem_reverse.mp hitem
    next => cases h
  next members key frames =>
    split at h
    next =>
      cases h
      refine fits_deliver_container hframes (fun k heq => nomatch heq) ?_
      exact List.map_subset _ fun _ hm => List.mem_reverse.mp hm
    next => cases h
  next => cases h

theorem fits_setKey {key : String} (hframes : FramesFit limit frames) (h : setKey key frames = .ok s) :
    s.Fits limit := by
  unfold setKey at h
  split at h
  next members old frames =>
    cases h
    exact ⟨hframes, fun _ heq => nomatch heq⟩
  next => cases h

/-- One step keeps what the containers hold within their room. -/
theorem fits_step {s' : State} {token : Token} (hs : s.Fits limit) (htoken : token.Fits)
    (h : step limit s token = .ok s') : s'.Fits limit := by
  unfold step at h
  split at h
  · exact fits_beginValue hs.frames htoken h
  · exact fits_closeFrame hs.frames h
  · exact fits_beginValue hs.frames htoken h
  · cases h; exact ⟨hs.frames, fun _ heq => nomatch heq⟩
  · exact fits_closeFrame hs.frames h
  · exact fits_closeFrame hs.frames h
  · exact fits_setKey hs.frames h
  · exact fits_setKey hs.frames h
  · cases h; exact ⟨hs.frames, fun _ heq => nomatch heq⟩
  · cases h; exact ⟨hs.frames, fun _ heq => nomatch heq⟩
  · exact fits_closeFrame hs.frames h
  · cases h

theorem fits_foldlM_step {tokens : List Token} (htokens : ∀ token ∈ tokens, token.Fits) {s' : State}
    (hs : s.Fits limit) (h : tokens.foldlM (step limit) s = .ok s') : s'.Fits limit := by
  induction tokens generalizing s with
  | nil => cases h; exact hs
  | cons token tokens ih =>
    obtain ⟨htoken, hrest⟩ := List.forall_mem_cons.mp htokens
    rw [List.foldlM_cons] at h
    obtain ⟨next, hstep, h⟩ := exists_of_bind_eq_ok h
    exact ih hrest (fits_step hs htoken hstep) h

end Fitting

theorem fits_token {piece : Piece} {token : Token} (h : piece.token = .ok token) : token.Fits := by
  rintro v rfl n
  cases piece with
  | mark c => cases h
  | quoted body =>
    obtain ⟨cs, -, hcs⟩ := exists_of_map_eq_ok h
    cases hcs
  | bare run =>
    obtain ⟨value, hrun, hvalue⟩ := exists_of_map_eq_ok h
    cases hvalue
    obtain ⟨-, -, rfl | ⟨b, rfl⟩ | ⟨k, rfl, hk⟩⟩ := of_readBare hrun
    · exact fitsIn_null
    · exact fitsIn_bool b
    · exact fitsIn_number hk

/-- Whatever a text is read as fits the limit. -/
theorem fitsIn_of_readWithin {limit : Nat} {text : String} {v : Json} (h : readWithin limit text = .ok v) :
    FitsIn Number.InRange limit v := by
  obtain ⟨tokens, htokens, h⟩ := exists_of_bind_eq_ok h
  obtain ⟨pieces, -, hpieces⟩ := exists_of_bind_eq_ok htokens
  obtain ⟨s, hs, h⟩ := exists_of_bind_eq_ok h
  -- The reader starts without open containers and without a result.
  have hfit : s.Fits limit := by
    refine fits_foldlM_step (fun token htoken => ?_) (s := ⟨[], .value⟩) ⟨trivial, fun _ heq => nomatch heq⟩ hs
    obtain ⟨piece, -, hpiece⟩ := exists_of_mem_of_mapM_eq_ok hpieces htoken
    exact fits_token hpiece
  split at h
  next result hresult =>
    cases h
    exact hfit.result _ hresult
  next => cases h

end Handoff.Json
