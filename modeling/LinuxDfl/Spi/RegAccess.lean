import LinuxDfl.Spi.Rounds

/-!
# Register access, end to end

A call of `do_reg_access` against a slave which conforms to the protocol: the
slave receives exactly the request of the call, and the caller gets what the
slave's registers hold.
-/

namespace LinuxDfl.Spi

open LinuxDfl.Kernel
open LinuxDfl.Lib.LittleEndian
open LinuxDfl.Lib.ByteStore

variable {Env Bus View : Type} {spi : SpiDevice Env}

/-! ## The slave's side -/

/-- Whatever the padding, the slave receives the one request. -/
theorem Slave.receive_transmitted (avalon : Avalon Bus) (slave : Slave Bus)
    {request : Request} (fits : request.size < 2 ^ 16) {init : List Byte}
    {last : Byte} (encodes : request.encode = init ++ [last]) (pad : Nat) :
    slave.receive avalon (transmitted init last pad) =
      { bus := (avalon.execute request slave.bus).2
        received := slave.received ++ [some request]
        response := some (avalon.execute request slave.bus).1 } := by
  have decodes := request.decode_encode fits
  rw [encodes] at decodes
  simp only [Slave.receive, packetsIn_transmitted, List.foldl_cons,
    List.foldl_nil, Slave.accept, decodes]

theorem Avalon.length_readBurst (avalon : Avalon Bus) (stride : BitVec 32)
    (count : Nat) (addr : BitVec 32) (bus : Bus) :
    (avalon.readBurst stride count addr bus).1.length = count := by
  induction count generalizing addr bus with
  | zero => rfl
  | succ count ih => simp [Avalon.readBurst, ih]

/-- What the slave's registers hold for a read. -/
theorem Avalon.execute_read (avalon : Avalon Bus) (reg : BitVec 32)
    (value : List (BitVec 32)) (count : Nat) (bus : Bus) :
    (avalon.execute (requestOf true reg value count) bus).1 =
      bytesOf
        (avalon.readBurst (requestOf true reg value count).stride count reg
          bus).1 := by
  have isRead :
      (requestOf true reg value count).code = transCodeRead ∨
        (requestOf true reg value count).code = transCodeSeqRead := by
    change transCode true count = _ ∨ transCode true count = _
    rw [transCode, if_pos rfl]
    split
    · exact Or.inl rfl
    · exact Or.inr rfl
  have words : 4 * count / 4 = count := by omega
  rw [Avalon.execute, if_pos isRead]
  simp only [requestOf, words]

/-- What the slave answers to a write of one value. -/
theorem Avalon.execute_write (avalon : Avalon Bus) (reg : BitVec 32)
    (value : List (BitVec 32)) (bus : Bus) :
    (avalon.execute (requestOf false reg value 1) bus).1 =
      [0x80, 0, 0, 4] := by
  have code : (requestOf false reg value 1).code = transCodeWrite := rfl
  have size : (requestOf false reg value 1).size = 4 := rfl
  have notRead :
      ¬ (transCodeWrite = transCodeRead ∨
        transCodeWrite = transCodeSeqRead) := by decide
  have answer :
      [transCodeWrite ^^^ 0x80, 0] ++ toBytesBE 2 4 =
        ([0x80, 0, 0, 4] : List Byte) := by decide
  rw [Avalon.execute, code, size, if_neg notRead, if_pos (Or.inl rfl)]
  exact answer

/-! ## Parsing the response -/

/-- The words which are held are those which are loaded one by one. -/
theorem load_words {buf : Storage} {address : Nat} {words : List (BitVec 32)}
    (holds : Holds buf address (bytesOf words)) :
    ((List.range words.length).map fun i =>
        BitVec.ofNat 32 (ofBytes (load buf (address + 4 * i) 4))) =
      words := by
  induction words generalizing address with
  | nil => rfl
  | cons word words ih =>
      have cons : bytesOf (word :: words) =
          toBytes 4 word.toNat ++ bytesOf words := rfl
      rw [cons] at holds
      have first := holds.left.load_eq
      have rest := ih holds.right
      rw [length_toBytes] at first rest
      rw [List.length_cons, List.range_succ_eq_map, List.map_cons,
        List.map_map, Nat.mul_zero, Nat.add_zero, first,
        ofNat_ofBytes_toBytes]
      refine congrArg (List.cons word) ?_
      refine Eq.trans (List.map_congr_left fun i _ => ?_) rest
      have position : address + 4 * (i + 1) = address + 4 + 4 * i := by omega
      simp only [Function.comp_apply, position]

/-- The values of a read are those whose bytes have been received. -/
theorem brRdTransRxParse_spec {br : SpiAvmmBridge}
    {values value : List (BitVec 32)} {count : Nat}
    (holds : Holds br.transBuf 0 (bytesOf values))
    (transLen : br.transLen = (bytesOf values).length)
    (count_eq : values.length = count) (length : value.length = count) :
    brRdTransRxParse br value count = (none, values) := by
  have size : ¬ count * spiAvmmValSize ≠ br.transLen := by
    rw [transLen, length_bytesOf, spiAvmmValSize]
    omega
  have words := load_words holds
  simp only [Nat.zero_add, count_eq] at words
  have rest := List.drop_of_length_le (Nat.le_of_eq length)
  rw [brRdTransRxParse, if_neg size]
  simp only [words, rest, List.append_nil]

/-- The response to a write of one value is accepted. -/
theorem brWrTransRxParse_spec {br : SpiAvmmBridge}
    (holds : Holds br.transBuf 0 [0x80, 0, 0, 4])
    (transLen : br.transLen = 4) :
    brWrTransRxParse br 1 = none := by
  have code : br.transBuf 0 = 0x80 := holds 0 (by decide)
  have sized : Holds br.transBuf 0 ([0x80, 0] ++ [0, 4]) := holds
  have size : load br.transBuf 2 2 = [0, 4] := sized.right.load_eq
  simp only [brWrTransRxParse, transLen, code, size]
  decide

/-! ## The receiving phase -/

/-- More fuel than enough makes no difference. -/
theorem phyRxLoop_more {br : SpiAvmmBridge} {fuel : Nat} {rx : PhyRx}
    {phyBuf : Storage} {deadline : BitVec 64} {late : Bool} {env : Env}
    {result : Option Errno × PhyRx × Storage × Env}
    (returns :
      phyRxLoop spi br fuel rx phyBuf deadline late env = some result)
    {enough : Nat} (le : fuel ≤ enough) :
    phyRxLoop spi br enough rx phyBuf deadline late env = some result := by
  induction fuel generalizing enough rx phyBuf deadline late env with
  | zero => cases returns
  | succ fuel ih =>
      obtain ⟨enough, rfl⟩ : ∃ less, enough = less + 1 :=
        ⟨enough - 1, by omega⟩
      have le : fuel ≤ enough := by omega
      unfold phyRxLoop at returns ⊢
      split at returns
      · rename_i full
        rw [if_pos full]
        exact returns
      · rename_i notFull
        rw [if_neg notFull]
        rcases reads : spi.spiRead br.wordLen env with ⟨_ | word, atRead⟩
        · rw [reads] at returns
          exact returns
        · rw [reads] at returns
          dsimp only at returns ⊢
          split at returns
          · exact returns
          · exact returns
          · exact ih returns le
          · split at returns
            · rename_i isLate
              rw [if_pos isLate]
              exact returns
            · rename_i notLate
              rw [if_neg notLate]
              exact ih returns le

/-- The driver receives the response with which the slave answers. -/
theorem brDoRxAndPktPhyParse_answers {br : SpiAvmmBridge}
    (generated : br.Generated) {view : Env → View}
    (readKeeps : ∀ env, view (spi.spiRead br.wordLen env).2 = view env)
    (jiffiesKeeps : ∀ env, view (spi.jiffies env).2 = view env)
    {init : List Byte} {last : Byte} (room : init.length < transBufSize)
    {env : Env} (answers : Answers spi br.wordLen (init ++ [last]) env) :
    ∃ enough next env',
      (∀ fuel, enough ≤ fuel →
        brDoRxAndPktPhyParse spi fuel br env = some (none, next, env')) ∧
      Holds next.transBuf 0 (init ++ [last]) ∧
      next.transLen = (init ++ [last]).length ∧
      view env' = view env := by
  obtain ⟨words, junk, coded, tail, stream, lengths, noSop, codes,
    delivers⟩ := answers
  let start : PhyRx := ⟨false, false, false, none, br.transBuf⟩
  let done : PhyRx :=
    .within true false (init.length + 1)
      (store br.transBuf 0 (init ++ [last]))
  have finishes : Finishes start words.flatten done := by
    rw [stream, List.append_assoc]
    refine .of_junk rfl noSop (.of_filter ?_)
    rw [codes]
    exact .of_layered rfl rfl init last tail
  obtain ⟨enough, buf, env', loop, kept⟩ :=
    phyRxLoop_finishes generated readKeeps jiffiesKeeps lengths finishes rfl
      room delivers br.phyBuf
  refine ⟨enough, { br with
    transBuf := store br.transBuf 0 (init ++ [last])
    phyBuf := buf
    transLen := init.length + 1 }, env', fun fuel le => ?_, ?_, ?_, ?_⟩
  · simp only [brDoRxAndPktPhyParse]
    rw [phyRxLoop_more loop le]
    rfl
  · exact holds_store _ _ _
  · simp
  · rw [kept, jiffiesKeeps]

/-! ## The whole call -/

theorem brDoTx_generated {br : SpiAvmmBridge} (generated : br.Generated)
    (env : Env) :
    brDoTx spi br env =
      ((spi.spiWrite (onWire br.wordLen (load br.phyBuf 0 br.phyLen)) env).1,
        { br with phyBuf := br.swapped br.phyBuf br.phyLen },
        (spi.spiWrite (onWire br.wordLen (load br.phyBuf 0 br.phyLen))
          env).2) := by
  have sent := load_swapped generated br.phyBuf br.phyLen
  simp only [brDoTx, sent]

theorem brRdTransRxParse_error {br : SpiAvmmBridge}
    {val : List (BitVec 32)} {count : Nat} {ret : Errno}
    (fails : (brRdTransRxParse br val count).1 = some ret) :
    (brRdTransRxParse br val count).2 = val := by
  unfold brRdTransRxParse at fails ⊢
  split
  · rfl
  · rename_i sized
    rw [if_neg sized] at fails
    cases fails

/-- The value buffer is only written when nothing fails. -/
theorem doRegAccess_error {fuel : Nat} {br br' : SpiAvmmBridge}
    {isRead : Bool} {reg : BitVec 32} {value value' : List (BitVec 32)}
    {count : Nat} {env env' : Env} {ret : Errno}
    (fails :
      doRegAccess spi fuel br isRead reg value count env =
        some (some ret, value', br', env')) : value' = value := by
  unfold doRegAccess at fails
  dsimp only at fails
  split at fails
  · simp_all
  · split at fails
    · simp_all
    · split at fails
      · simp_all
      · obtain ⟨⟨parse, parsed, env⟩, -, returns⟩ :=
          Option.map_eq_some_iff.mp fails
        cases parse with
        | some ret => simp_all
        | none =>
            cases isRead with
            | true =>
                simp only [if_true, Prod.mk.injEq] at returns
                rw [← returns.2.1]
                exact brRdTransRxParse_error returns.1
            | false =>
                simp only [Bool.false_eq_true, if_false, Prod.mk.injEq]
                  at returns
                exact returns.2.1.symm

/-- What a call does with the answer. -/
def finishRegAccess (isRead : Bool) (value : List (BitVec 32)) (count : Nat)
    (received : Option Errno × SpiAvmmBridge × Env) :
    Option Errno × List (BitVec 32) × SpiAvmmBridge × Env :=
  match received with
  | (some ret, br, env) => (some ret, value, br, env)
  | (none, br, env) =>
      if isRead then
        let parsed := brRdTransRxParse br value count
        (parsed.1, parsed.2, br, env)
      else
        (brWrTransRxParse br count, value, br, env)

theorem doRegAccess_of_steps {br prepared filled sent : SpiAvmmBridge}
    {isRead : Bool} {reg : BitVec 32} {value : List (BitVec 32)}
    {count : Nat} {env next : Env}
    (prepares :
      brTransTxPrepare { br with transLen := 0, phyLen := 0 } isRead reg
          value count =
        (none, prepared))
    (fills : brPktPhyTxPrepare prepared = (none, filled))
    (sends : brDoTx spi filled env = (none, sent, next)) (fuel : Nat) :
    doRegAccess spi fuel br isRead reg value count env =
      (brDoRxAndPktPhyParse spi fuel sent next).map
        (finishRegAccess isRead value count) := by
  simp only [doRegAccess, prepares, fills, sends]
  refine congrArg (Option.map · _) (funext fun received => ?_)
  obtain ⟨_ | ret, br, env⟩ := received <;> rfl

/-- Everything a call does up to the answer. -/
theorem doRegAccess_of_sent {br : SpiAvmmBridge} (generated : br.Generated)
    {avalon : Avalon Bus} {slave : Env → Slave Bus}
    (conforming : Conforming spi br.wordLen avalon slave)
    {isRead : Bool} (reg : BitVec 32) {value : List (BitVec 32)} {count : Nat}
    (countOk : CountOk isRead count) (length : value.length = count)
    (env : Env) :
    let request := requestOf isRead reg value count
    ∃ sent bytes,
      sent.Generated ∧ sent.wordLen = br.wordLen ∧
      (∀ fuel,
        doRegAccess spi fuel br isRead reg value count env =
          (brDoRxAndPktPhyParse spi fuel sent
            (spi.spiWrite bytes env).2).map
            (finishRegAccess isRead value count)) ∧
      slave (spi.spiWrite bytes env).2 =
        { bus := (avalon.execute request (slave env).bus).2
          received := (slave env).received ++ [some request]
          response :=
            some (avalon.execute request (slave env).bus).1 } := by
  intro request
  obtain ⟨transBuf, prepares, holds, fits⟩ :=
    brTransTxPrepare_spec { br with transLen := 0, phyLen := 0 } reg countOk
      length
  obtain ⟨init, last, encodes⟩ :
      ∃ init last, request.encode = init ++ [last] := by
    have nonempty : request.encode ≠ [] := by
      intro empty
      have size := request.length_encode
      rw [empty, List.length_nil] at size
      omega
    exact ⟨_, _, (List.dropLast_append_getLast nonempty).symm⟩
  have size : request.size < 2 ^ 16 := by
    have most := countOk.2
    simp only [request, requestOf]
    cases isRead <;>
      simp only [maxReadCnt, maxWriteCnt, if_true, Bool.false_eq_true,
        if_false] at most <;> omega
  let prepared : SpiAvmmBridge :=
    { br with
      phyLen := 0
      transBuf := transBuf
      transLen := request.encode.length }
  have generatedPrepared : prepared.Generated := generated
  rw [encodes] at holds
  have transLen : prepared.transLen = init.length + 1 := by
    simp only [prepared, encodes, List.length_append, List.length_singleton]
  obtain ⟨pad, phyBuf, encodesPhy, held, -, -⟩ :=
    brPktPhyTxPrepare_spec generatedPrepared.wordLen holds transLen
      (transLen ▸ fits)
  let filled : SpiAvmmBridge :=
    { prepared with
      phyBuf := phyBuf
      phyLen := (transmitted init last pad).length }
  let bytes := onWire br.wordLen (transmitted init last pad)
  have sends :
      brDoTx spi filled env =
        ((spi.spiWrite bytes env).1,
          { filled with phyBuf := filled.swapped phyBuf filled.phyLen },
          (spi.spiWrite bytes env).2) := by
    have generatedFilled : filled.Generated := generated
    have loaded :
        load filled.phyBuf 0 filled.phyLen = transmitted init last pad :=
      held.load_eq
    have sent :
        brDoTx spi filled env = _ := brDoTx_generated generatedFilled env
    rwa [loaded] at sent
  obtain ⟨next, writes, receives⟩ := conforming.write bytes env
  rw [onWire_twice, Slave.receive_transmitted avalon (slave env) size encodes]
    at receives
  refine ⟨{ filled with phyBuf := filled.swapped phyBuf filled.phyLen },
    bytes, generated, rfl, fun fuel => ?_, ?_⟩
  · rw [writes] at sends ⊢
    exact doRegAccess_of_steps prepares encodesPhy sends fuel
  · rw [writes]
    exact receives

/-- The response fits the buffer, and is what the call expects. -/
theorem response_expected (avalon : Avalon Bus) {isRead : Bool}
    (reg : BitVec 32) {value : List (BitVec 32)} {count : Nat}
    (countOk : CountOk isRead count) (length : value.length = count)
    (bus : Bus) :
    let request := requestOf isRead reg value count
    let response := (avalon.execute request bus).1
    0 < response.length ∧ response.length ≤ transBufSize ∧
      ∀ (br : SpiAvmmBridge) (env : Env),
        Holds br.transBuf 0 response → br.transLen = response.length →
          finishRegAccess isRead value count (none, br, env) =
            (none,
              if isRead then
                (avalon.readBurst request.stride count reg bus).1
              else value,
              br, env) := by
  obtain ⟨least, most⟩ := countOk
  have bufSize : transBufSize = 1024 := by decide
  cases isRead with
  | true =>
      let values :=
        (avalon.readBurst (requestOf true reg value count).stride count reg
          bus).1
      have size : values.length = count := avalon.length_readBurst _ _ _ _
      have bytes := length_bytesOf values
      simp only [maxReadCnt, if_true] at most
      simp only [avalon.execute_read, if_true]
      change 0 < (bytesOf values).length ∧
        (bytesOf values).length ≤ transBufSize ∧ _
      refine ⟨by omega, by omega, fun br env holds transLen => ?_⟩
      have parsed := brRdTransRxParse_spec holds transLen size length
      simp only [finishRegAccess, if_true, parsed]
  | false =>
      obtain rfl : count = 1 := by
        simp only [maxWriteCnt, Bool.false_eq_true, if_false] at most
        omega
      simp only [avalon.execute_write, Bool.false_eq_true, if_false]
      refine ⟨by decide, by decide, fun br env holds transLen => ?_⟩
      have parsed := brWrTransRxParse_spec holds transLen
      simp only [finishRegAccess, Bool.false_eq_true, if_false, parsed]

/--
Register access over SPI.  An error leaves the caller's values as they are.
With a slave which conforms to the protocol there is no error: it receives
one request, that of the call, and the values of a read are those of its
registers.
-/
theorem doRegAccess_endToEnd (br : SpiAvmmBridge) (isRead : Bool)
    (reg : BitVec 32) (value : List (BitVec 32)) (count : Nat) (env : Env) :
    (∀ fuel ret value' br' env',
      doRegAccess spi fuel br isRead reg value count env =
          some (some ret, value', br', env') →
        value' = value) ∧
      ∀ (avalon : Avalon Bus) (slave : Env → Slave Bus),
        br.Generated → Conforming spi br.wordLen avalon slave →
          CountOk isRead count → value.length = count →
            let request := requestOf isRead reg value count
            let bus := (slave env).bus
            ∃ enough br' env',
              (∀ fuel, enough ≤ fuel →
                doRegAccess spi fuel br isRead reg value count env =
                  some
                    (none,
                      if isRead then
                        (avalon.readBurst request.stride count reg bus).1
                      else value,
                      br', env')) ∧
                (slave env').received =
                  (slave env).received ++ [some request] ∧
                (slave env').bus = (avalon.execute request bus).2 := by
  refine ⟨fun _ _ _ _ _ fails => doRegAccess_error fails, ?_⟩
  intro avalon slave generated conforming countOk length request bus
  obtain ⟨sent, bytes, sentGenerated, wordLen, call, receives⟩ :=
    doRegAccess_of_sent generated conforming reg countOk length env
  have response :
      (slave (spi.spiWrite bytes env).2).response =
        some (avalon.execute request bus).1 := by
    rw [receives]
  have answers := conforming.answers bytes env _ response
  rw [← wordLen] at answers
  let view (env : Env) := ((slave env).received, (slave env).bus)
  have readKeeps (env : Env) :
      view (spi.spiRead sent.wordLen env).2 = view env := by
    simp only [view, wordLen, conforming.read env]
  have jiffiesKeeps (env : Env) :
      view (spi.jiffies env).2 = view env := by
    simp only [view, conforming.jiffies env]
  obtain ⟨nonempty, room, finishes⟩ :=
    response_expected avalon reg countOk length bus
  obtain ⟨init, last, payload⟩ :
      ∃ init last, (avalon.execute request bus).1 = init ++ [last] :=
    ⟨_, _, (List.dropLast_append_getLast
      (List.ne_nil_of_length_pos nonempty)).symm⟩
  rw [payload] at answers
  rw [payload, List.length_append, List.length_singleton] at room
  obtain ⟨enough, br', env', parses, holds, transLen, kept⟩ :=
    brDoRxAndPktPhyParse_answers sentGenerated readKeeps jiffiesKeeps room
      answers
  simp only [view, receives, Prod.mk.injEq] at kept
  refine ⟨enough, br', env', fun fuel le => ?_, kept.1, kept.2⟩
  rw [← payload] at holds transLen
  rw [call, parses fuel le, Option.map_some, finishes br' env' holds transLen]

/-! ## A slave with one register -/

/-- A bus whose addresses all lead to one register. -/
def oneRegister : Avalon (BitVec 32) where
  read _ bus := (bus, bus)
  write _ word _ := word

/-- The slave, and the bytes it has yet to send. -/
abbrev OneRegisterEnv := Slave (BitVec 32) × List Byte

/-- Byte by byte, the slave answers at once, and idles when it has answered. -/
def oneRegisterSpi : SpiDevice OneRegisterEnv where
  spiWrite bytes env :=
    let slave := env.1.receive oneRegister bytes
    (none, slave, (slave.response.map layered).getD [])
  spiRead count env :=
    match env.2 with
    | [] => (.ok (List.replicate count phyIdle), env)
    | byte :: rest => (.ok [byte], env.1, rest)
  jiffies env := (0, env)
  xferTimeout := 20

theorem delivers_oneRegister (slave : Slave (BitVec 32)) (started : Bool)
    (bytes : List Byte) :
    Delivers oneRegisterSpi 1 20 started false (bytes.map fun byte => [byte])
      (slave, bytes) := by
  induction bytes generalizing started with
  | nil => trivial
  | cons byte rest ih =>
      have early : timeAfter 0 20 = false := by decide
      refine ⟨(slave, rest), rfl, fun _ => ih true, fun _ => ⟨rfl, ?_⟩⟩
      change Delivers oneRegisterSpi 1 20 started (timeAfter 0 20) _ _
      rw [early]
      exact ih started

theorem conforming_oneRegister :
    Conforming oneRegisterSpi 1 oneRegister Prod.fst where
  write _ _ := ⟨_, rfl, rfl⟩
  answers bytes env response responds := by
    have pending :
        (oneRegisterSpi.spiWrite bytes env).2 =
          ((oneRegisterSpi.spiWrite bytes env).2.1, layered response) := by
      refine Prod.ext rfl ?_
      change ((Slave.receive oneRegister env.1 bytes).response.map
        layered).getD [] = _
      rw [show (Slave.receive oneRegister env.1 bytes).response =
        some response from responds]
      rfl
    rw [pending]
    refine ⟨(layered response).map fun byte => [byte], [], layered response,
      [], ?_, ?_, List.not_mem_nil, filter_layered response,
      delivers_oneRegister _ false _⟩
    · rw [← List.flatMap_def, List.flatMap_singleton', List.nil_append,
        List.append_nil]
    · simp
  read env := by
    obtain ⟨slave, _ | ⟨byte, rest⟩⟩ := env <;> exact ⟨rfl, rfl⟩
  jiffies _ := ⟨rfl, rfl⟩

/-- A bridge with words of one byte, as it is set up. -/
def byteBridge : SpiAvmmBridge where
  wordLen := 1
  transLen := 0
  phyLen := 0
  transBuf _ := 0
  phyBuf _ := 0
  swapWords := none

/-- Reading a register which holds special bytes of both layers. -/
theorem doRegAccess_endToEnd_oneRegister :
    spiAvmmBridgeCtxGen (some .einval) none true = .ok byteBridge ∧
      ∃ enough br' env', ∀ fuel, enough ≤ fuel →
        doRegAccess oneRegisterSpi fuel byteBridge true 4 [0] 1
            (⟨0x4a7b7d00, [], none⟩, []) =
          some (none, [0x4a7b7d00], br', env') := by
  have generates :
      spiAvmmBridgeCtxGen (some .einval) none true = .ok byteBridge := rfl
  have countOk : CountOk true 1 := ⟨Nat.le_refl 1, by decide⟩
  obtain ⟨enough, br', env', call, -⟩ :=
    (doRegAccess_endToEnd byteBridge true 4 [0] 1
      (⟨0x4a7b7d00, [], none⟩, [])).2 oneRegister Prod.fst
      (generated_of_spiAvmmBridgeCtxGen generates) conforming_oneRegister
      countOk rfl
  exact ⟨generates, enough, br', env', call⟩

end LinuxDfl.Spi
