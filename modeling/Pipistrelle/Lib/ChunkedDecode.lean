import Mathlib.Data.List.Basic

set_option autoImplicit false

/- A receive loop over a growing buffer: append what was read, then decode and
   handle items from the front until the decoder asks for more or something
   fails. A decoder that never changes its mind when bytes are appended makes the
   loop independent of how the stream was cut into reads. -/
namespace ChunkedDecode

inductive Decision (ι ε : Type) where
  | more
  | item (value : ι) (consumed : Nat)
  | fail (error : ε)

structure Decoder (β ι ε : Type) where
  decode : List β → Decision ι ε
  consumes : ∀ buf value n, decode buf = .item value n → 0 < n ∧ n ≤ buf.length
  stable : ∀ buf suffix, decode buf ≠ .more → decode (buf ++ suffix) = decode buf

inductive End (β ε : Type) where
  | waiting (unread : List β)
  | stopped (error : ε)
deriving DecidableEq

structure Progress (β ι ε σ : Type) where
  world : σ
  handed : List ι
  status : End β ε

variable {β ι ε σ : Type}

section Loop

variable (decoder : Decoder β ι ε) (handle : σ → ι → σ × Option ε)

-- The inner loop, between two reads.
def drain (world : σ) (handed : List ι) (buf : List β) : Progress β ι ε σ :=
  match _decided : decoder.decode buf with
  | .more => ⟨world, handed, .waiting buf⟩
  | .fail error => ⟨world, handed, .stopped error⟩
  | .item value n =>
      match handle world value with
      | (world, some error) => ⟨world, handed ++ [value], .stopped error⟩
      | (world, none) => drain world (handed ++ [value]) (buf.drop n)
termination_by buf.length
decreasing_by
  have bounds := decoder.consumes buf value n _decided
  rw [List.length_drop]
  omega

-- One read of the outer loop. A stopped loop reads no more.
def feed (progress : Progress β ι ε σ) (chunk : List β) : Progress β ι ε σ :=
  match progress.status with
  | .waiting unread => drain decoder handle progress.world progress.handed (unread ++ chunk)
  | .stopped _ => progress

theorem drain_more (world : σ) (handed : List ι) (buf : List β) (decided : decoder.decode buf = .more) :
    drain decoder handle world handed buf = ⟨world, handed, .waiting buf⟩ := by
  rw [drain]
  split <;> simp_all

theorem drain_fail (world : σ) (handed : List ι) (buf : List β) (error : ε)
    (decided : decoder.decode buf = .fail error) :
    drain decoder handle world handed buf = ⟨world, handed, .stopped error⟩ := by
  rw [drain]
  split <;> simp_all

theorem drain_item (world : σ) (handed : List ι) (buf : List β) (value : ι) (n : Nat)
    (decided : decoder.decode buf = .item value n) :
    drain decoder handle world handed buf =
      match handle world value with
      | (world, some error) => ⟨world, handed ++ [value], .stopped error⟩
      | (world, none) => drain decoder handle world (handed ++ [value]) (buf.drop n) := by
  rw [drain]
  split
  · simp_all
  · simp_all
  · rename_i found
    rw [decided] at found
    cases found
    rfl

-- Recursion on the buffer: draining a longer buffer goes through the same items
-- first, and then continues as if the rest had been read later.
theorem drain_append (world : σ) (handed : List ι) (buf suffix : List β) :
    drain decoder handle world handed (buf ++ suffix) =
      feed decoder handle (drain decoder handle world handed buf) suffix := by
  cases decided : decoder.decode buf with
  | more => rw [drain_more decoder handle world handed buf decided, feed]
  | fail error =>
      have same := decoder.stable buf suffix (by simp [decided])
      rw [drain_fail decoder handle world handed buf error decided,
        drain_fail decoder handle world handed _ error (same.trans decided), feed]
  | item value n =>
      have same := decoder.stable buf suffix (by simp [decided])
      have bounds := decoder.consumes buf value n decided
      rw [drain_item decoder handle world handed buf value n decided,
        drain_item decoder handle world handed _ value n (same.trans decided)]
      obtain ⟨next, failure⟩ := handle world value
      cases failure with
      | some error => rfl
      | none =>
          rw [List.drop_append_of_le_length bounds.2]
          exact drain_append next _ (buf.drop n) suffix
termination_by buf.length
decreasing_by
  rw [List.length_drop]
  omega

theorem drain_stopped_cause (cause : ε → Prop) (decodes : ∀ buf error, decoder.decode buf = .fail error → cause error)
    (handles : ∀ world value error, (handle world value).2 = some error → cause error) (world : σ) (handed : List ι)
    (buf : List β) (error : ε) (stopped : (drain decoder handle world handed buf).status = .stopped error) :
    cause error := by
  cases decided : decoder.decode buf with
  | more => simp [drain_more decoder handle world handed buf decided] at stopped
  | fail failure =>
      rw [drain_fail decoder handle world handed buf failure decided] at stopped
      cases stopped
      exact decodes buf error decided
  | item value n =>
      have bounds := decoder.consumes buf value n decided
      rw [drain_item decoder handle world handed buf value n decided] at stopped
      have handled := handles world value
      generalize handle world value = result at stopped handled
      obtain ⟨next, failure⟩ := result
      cases failure with
      | some failure =>
          cases stopped
          exact handled error rfl
      | none => exact drain_stopped_cause cause decodes handles next _ (buf.drop n) error stopped
termination_by buf.length
decreasing_by
  rw [List.length_drop]
  omega

theorem drain_waiting (world : σ) (handed : List ι) (buf unread : List β)
    (waits : (drain decoder handle world handed buf).status = .waiting unread) : decoder.decode unread = .more := by
  cases decided : decoder.decode buf with
  | more =>
      rw [drain_more decoder handle world handed buf decided] at waits
      cases waits
      exact decided
  | fail failure => simp [drain_fail decoder handle world handed buf failure decided] at waits
  | item value n =>
      have bounds := decoder.consumes buf value n decided
      rw [drain_item decoder handle world handed buf value n decided] at waits
      generalize handle world value = result at waits
      obtain ⟨next, failure⟩ := result
      cases failure with
      | some failure => simp at waits
      | none => exact drain_waiting next _ (buf.drop n) unread waits
termination_by buf.length
decreasing_by
  rw [List.length_drop]
  omega

theorem drain_handed (world : σ) (handed : List ι) (buf : List β) :
    handed <+: (drain decoder handle world handed buf).handed := by
  cases decided : decoder.decode buf with
  | more => simp [drain_more decoder handle world handed buf decided]
  | fail failure => simp [drain_fail decoder handle world handed buf failure decided]
  | item value n =>
      have bounds := decoder.consumes buf value n decided
      rw [drain_item decoder handle world handed buf value n decided]
      obtain ⟨next, failure⟩ := handle world value
      cases failure with
      | some failure => exact List.prefix_append handed [value]
      | none => exact (List.prefix_append handed [value]).trans (drain_handed next _ (buf.drop n))
termination_by buf.length
decreasing_by
  rw [List.length_drop]
  omega

theorem drain_items (world : σ) (handed : List ι) (items : List (ι × List β)) (nothing : decoder.decode [] = .more)
    (whole : ∀ item ∈ items, decoder.decode item.2 = .item item.1 item.2.length)
    (accepts : ∀ item ∈ items, ∀ world, (handle world item.1).2 = none) :
    drain decoder handle world handed (items.flatMap Prod.snd) =
      ⟨items.foldl (fun world item => (handle world item.1).1) world, handed ++ items.map Prod.fst, .waiting []⟩ := by
  induction items generalizing world handed with
  | nil => rw [List.flatMap_nil, drain_more _ _ _ _ _ nothing, List.map_nil, List.append_nil, List.foldl_nil]
  | cons item rest ih =>
      have decoded := whole item (by simp)
      have extended := (decoder.stable item.2 (rest.flatMap Prod.snd) (by simp [decoded])).trans decoded
      have accepted := accepts item (by simp) world
      rw [List.flatMap_cons, drain_item _ _ _ _ _ _ _ extended, List.drop_left, List.foldl_cons, List.map_cons]
      generalize handle world item.1 = result at accepted ⊢
      obtain ⟨next, failure⟩ := result
      dsimp only at accepted ⊢
      subst accepted
      dsimp only
      rw [ih next _ (fun other member => whole other (by simp [member]))
        (fun other member => accepts other (by simp [member])), List.append_assoc, List.singleton_append]

def upTo (stops : ι → Bool) : List ι → List ι
  | [] => []
  | item :: rest => if stops item then [item] else item :: upTo stops rest

theorem up_to_earlier (stops other : ι → Bool) (items : List ι)
    (never : ∀ item ∈ upTo stops items, other item = false) : upTo stops items <+: upTo other items := by
  induction items with
  | nil => exact List.nil_prefix
  | cons item rest ih =>
      by_cases here : stops item = true
      · have passed := never item (by simp [upTo, here])
        simp [upTo, here, passed]
      · have passed := never item (by simp [upTo, here])
        have tail := ih (fun later member => never later (by simp [upTo, here, member]))
        simpa [upTo, here, passed] using tail

theorem drain_items_up_to (stops : ι → Bool) (failure : ε) (keeps : σ → Prop) (world : σ) (handed : List ι)
    (items : List (ι × List β)) (start : keeps world) (nothing : decoder.decode [] = .more)
    (whole : ∀ item ∈ items, decoder.decode item.2 = .item item.1 item.2.length)
    (step : ∀ world item, keeps world → keeps (handle world item).1)
    (fails : ∀ world item, keeps world → (handle world item).2 = if stops item then some failure else none) :
    drain decoder handle world handed (items.flatMap Prod.snd) =
      ⟨(upTo stops (items.map Prod.fst)).foldl (fun world item => (handle world item).1) world,
        handed ++ upTo stops (items.map Prod.fst),
        if (items.map Prod.fst).any stops then .stopped failure else .waiting []⟩ := by
  induction items generalizing world handed with
  | nil => rw [List.flatMap_nil, drain_more _ _ _ _ _ nothing]; simp [upTo]
  | cons item rest ih =>
      have decoded := whole item (by simp)
      have extended := (decoder.stable item.2 (rest.flatMap Prod.snd) (by simp [decoded])).trans decoded
      have kept := step world item.1 start
      have failed := fails world item.1 start
      rw [List.flatMap_cons, drain_item _ _ _ _ _ _ _ extended, List.drop_left, List.map_cons]
      by_cases here : stops item.1 = true
      · rw [if_pos here] at failed
        rw [upTo, if_pos here, List.foldl_cons, List.foldl_nil, List.any_cons, here]
        generalize handle world item.1 = result at failed ⊢
        obtain ⟨next, outcome⟩ := result
        dsimp only at failed ⊢
        subst failed
        rfl
      · rw [if_neg here] at failed
        rw [upTo, if_neg here, List.foldl_cons, List.any_cons, Bool.eq_false_iff.mpr here, Bool.false_or]
        generalize handle world item.1 = result at failed kept ⊢
        obtain ⟨next, outcome⟩ := result
        dsimp only at failed kept ⊢
        subst failed
        dsimp only
        rw [ih next _ kept (fun other member => whole other (by simp [member])), List.append_assoc,
          List.singleton_append]

theorem decode_prefix (front back : List β) (value : ι) (nonempty : back ≠ [])
    (whole : decoder.decode (front ++ back) = .item value (front ++ back).length) : decoder.decode front = .more := by
  cases decided : decoder.decode front with
  | more => rfl
  | fail error =>
      rw [decoder.stable front back (by simp [decided]), decided] at whole
      cases whole
  | item other n =>
      have bounds := decoder.consumes front other n decided
      rw [decoder.stable front back (by simp [decided]), decided] at whole
      cases whole
      have grows := List.length_pos_of_ne_nil nonempty
      rw [List.length_append] at bounds
      omega

theorem prefix_items (items : List (ι × List β)) (nothing : decoder.decode [] = .more)
    (whole : ∀ item ∈ items, decoder.decode item.2 = .item item.1 item.2.length) (front : List β)
    (begins : front <+: items.flatMap Prod.snd) :
    ∃ n rest, front = (items.take n).flatMap Prod.snd ++ rest ∧ decoder.decode rest = .more := by
  induction items generalizing front with
  | nil => exact ⟨0, [], by simpa using begins, nothing⟩
  | cons item later ih =>
      obtain ⟨here, others⟩ := List.forall_mem_cons.mp whole
      rw [List.flatMap_cons] at begins
      by_cases long : item.2.length ≤ front.length
      · obtain ⟨more, rfl⟩ := List.prefix_of_prefix_length_le (List.prefix_append item.2 _) begins long
        obtain ⟨n, rest, same, waits⟩ := ih others more ((List.prefix_append_right_inj item.2).mp begins)
        refine ⟨n + 1, rest, ?_, waits⟩
        rw [List.take_succ_cons, List.flatMap_cons, List.append_assoc, ← same]
      · obtain ⟨back, same⟩ := List.prefix_of_prefix_length_le begins (List.prefix_append item.2 _) (Nat.le_of_not_le long)
        have nonempty : back ≠ [] := by
          rintro rfl
          rw [List.append_nil] at same
          exact long (Nat.le_of_eq (congrArg List.length same.symm))
        exact ⟨0, front, by simp, decode_prefix decoder front back item.1 nonempty (by rw [same]; exact here)⟩

theorem feed_append (progress : Progress β ι ε σ) (first second : List β) :
    feed decoder handle (feed decoder handle progress first) second =
      feed decoder handle progress (first ++ second) := by
  cases status : progress.status with
  | waiting unread =>
      have once : feed decoder handle progress first =
          drain decoder handle progress.world progress.handed (unread ++ first) := by rw [feed, status]
      rw [once, ← drain_append, feed, status, List.append_assoc]
  | stopped error => simp [feed, status]

theorem feed_chunks (progress : Progress β ι ε σ) (chunk : List β) (chunks : List (List β)) :
    (chunk :: chunks).foldl (feed decoder handle) progress =
      feed decoder handle progress (chunk :: chunks).flatten := by
  induction chunks generalizing chunk with
  | nil => simp
  | cons next tail ih =>
      rw [List.foldl_cons, List.foldl_cons, feed_append, ← List.foldl_cons, ih]
      simp

theorem feed_division (progress : Progress β ι ε σ) (first second : List (List β))
    (same : first.flatten = second.flatten) (firstSome : ∀ chunk ∈ first, chunk ≠ [])
    (secondSome : ∀ chunk ∈ second, chunk ≠ []) :
    first.foldl (feed decoder handle) progress = second.foldl (feed decoder handle) progress := by
  cases first with
  | nil =>
      cases second with
      | nil => rfl
      | cons chunk tail => simp [secondSome chunk (by simp)] at same
  | cons chunk tail =>
      cases second with
      | nil => simp [firstSome chunk (by simp)] at same
      | cons other rest => rw [feed_chunks, feed_chunks, same]

end Loop

end ChunkedDecode
