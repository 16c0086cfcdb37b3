namespace BusMachine.Text.Utf8

inductive Flaw where
  | startByte
  | continuationByte
  | endOfData
deriving DecidableEq, Repr

structure DecodeError where
  position : Nat
  bytes : List UInt8
  flaw : Flaw
deriving DecidableEq, Repr

/-- What a first byte announces: how many bytes follow, and the bounds of the next of them. -/
inductive Announcement where
  | single
  | sequence (following : Nat) (low high : UInt8)
  | invalid

def announcement (a : UInt8) : Announcement :=
  if a < 0x80 then .single
  else if a < 0xC2 then .invalid
  else if a < 0xE0 then .sequence 1 0x80 0xBF
  else if a == 0xE0 then .sequence 2 0xA0 0xBF
  else if a == 0xED then .sequence 2 0x80 0x9F
  else if a < 0xF0 then .sequence 2 0x80 0xBF
  else if a == 0xF0 then .sequence 3 0x90 0xBF
  else if a < 0xF4 then .sequence 3 0x80 0xBF
  else if a == 0xF4 then .sequence 3 0x80 0x8F
  else .invalid

def isContinuation (b : UInt8) : Bool := 0x80 ≤ b && b < 0xC0

def codePoint (a : UInt8) (mask : Nat) (following : List UInt8) : Nat :=
  following.foldl (fun n b => 64 * n + b.toNat % 64) (a.toNat % mask)

def decodeFrom (position : Nat) : List UInt8 → Except DecodeError (List Char)
  | [] => .ok []
  | a :: rest =>
    match announcement a with
    | .single => do
      let cs ← decodeFrom (position + 1) rest
      return Char.ofNat a.toNat :: cs
    | .invalid => .error ⟨position, [a], .startByte⟩
    | .sequence n low high =>
      match rest with
      | [] => .error ⟨position, [a], .endOfData⟩
      | b :: rest =>
        if b < low || high < b then .error ⟨position, [a], .continuationByte⟩
        else if n == 1 then do
          let cs ← decodeFrom (position + 2) rest
          return Char.ofNat (codePoint a 32 [b]) :: cs
        else match rest with
          | [] => .error ⟨position, [a, b], .endOfData⟩
          | c :: rest =>
            if !isContinuation c then .error ⟨position, [a, b], .continuationByte⟩
            else if n == 2 then do
              let cs ← decodeFrom (position + 3) rest
              return Char.ofNat (codePoint a 16 [b, c]) :: cs
            else match rest with
              | [] => .error ⟨position, [a, b, c], .endOfData⟩
              | d :: rest =>
                if !isContinuation d then .error ⟨position, [a, b, c], .continuationByte⟩
                else do
                  let cs ← decodeFrom (position + 4) rest
                  return Char.ofNat (codePoint a 8 [b, c, d]) :: cs

def decode (bytes : List UInt8) : Except DecodeError (List Char) := decodeFrom 0 bytes

def encode (cs : List Char) : List UInt8 := cs.flatMap String.utf8EncodeChar

def Flaw.reason : Flaw → String
  | .startByte => "invalid start byte"
  | .continuationByte => "invalid continuation byte"
  | .endOfData => "unexpected end of data"

def DecodeError.message (e : DecodeError) : String :=
  let place := match e.bytes with
    | [b] => "byte 0x" ++ String.ofList ((Nat.toDigits 16 b.toNat).leftpad 2 '0') ++
        " in position " ++ toString e.position
    | _ => "bytes in position " ++ toString e.position ++ "-" ++
        toString (e.position + e.bytes.length - 1)
  "'utf-8' codec can't decode " ++ place ++ ": " ++ e.flaw.reason

end BusMachine.Text.Utf8
