import KeepPeek.Mp4.Fragmented
import KeepPeek.Storage.Frame
import KeepPeek.Storage.Nal

/-! What a media frame says about its decoder: the parameter sets in the length
prefixed units of a video frame, and the ADTS header of an AAC frame. -/
namespace KeepPeek.MediumTerm

open Lib
open Storage (VideoCodec VideoFrame AudioFrame RecordingFrame)

inductive Error where
  /-- A file or catalog operation failed. -/
  | io
  | mp4 (error : Mp4.Error)
  | invalid (message : String)
  | reservationTaken
  /-- The program ends: `unwrap` of nothing, or arithmetic that overflows. -/
  | panicked
deriving DecidableEq, Repr

def Error.isIo : Error → Bool
  | .io | .mp4 .device | .reservationTaken => true
  | _ => false

/-- The units that `for_each_avcc_nalu` visits. -/
def avccNalus (data : List UInt8) : List (List UInt8) := (Storage.Nal.forEachAvccNalu data).1

def h264Type (nalu : List UInt8) : Option UInt8 := nalu.head?.map (· &&& 0x1f)

def h265Type (nalu : List UInt8) : Option UInt8 := nalu.head?.map fun (byte : UInt8) =>
    (byte >>> 1) &&& 0x3f

def lastOf (select : List UInt8 → Bool) (nalus : List (List UInt8)) : Option (List UInt8) :=
  nalus.reverse.find? select

def extractH264SpsPps (data : List UInt8) : Option (List UInt8) × Option (List UInt8) :=
  let nalus := avccNalus data
  (lastOf (fun nalu => h264Type nalu == some 7) nalus,
    lastOf (fun nalu => h264Type nalu == some 8) nalus)

def hasH264ParameterSets (data : List UInt8) : Bool :=
  (avccNalus data).any fun nalu => h264Type nalu == some 7 || h264Type nalu == some 8

/-- A unit of one byte is passed over. -/
def extractH265Params (data : List UInt8) :
    Option (List UInt8) × Option (List UInt8) × Option (List UInt8) :=
  let nalus := (avccNalus data).filter fun nalu => 2 ≤ nalu.length
  (lastOf (fun nalu => h265Type nalu == some 32) nalus,
    lastOf (fun nalu => h265Type nalu == some 33) nalus,
    lastOf (fun nalu => h265Type nalu == some 34) nalus)

def hasH265ParameterSets (data : List UInt8) : Bool :=
  (avccNalus data).any fun nalu =>
    (h265Type nalu).any fun kind => 32 ≤ kind && kind ≤ 34

inductive MediaConfig where
  | avc (width height : Nat) (seqParamSet picParamSet : List UInt8)
  | hevc (width height : Nat) (vps sps pps decoderConfig : List UInt8)
  | aac (bitrate frequency : Nat) (stereo : Bool)
  | vp9 (width height : Nat)
  | ttxt
deriving DecidableEq, Repr

def MediaConfig.trackType : MediaConfig → Mp4.TrackType
  | .avc .. | .hevc .. | .vp9 .. => .video
  | .aac .. => .audio
  | .ttxt => .subtitle

/-- The parser of parameter sets that the writer uses. -/
structure Parser where
  /-- The picture size of an H.264 stream, if its sets can be parsed. -/
  h264 : List UInt8 → List UInt8 → Option (Nat × Nat)
  /-- The picture size and the decoder record of an H.265 stream, or why not. -/
  h265 : List UInt8 → List UInt8 → List UInt8 → Except String (Nat × Nat × List UInt8)

def u16Max : Nat := 65535

def h264PixelDimensions (parser : Parser) (sps pps : List UInt8) : Option (Nat × Nat) :=
  (parser.h264 sps pps).filter fun (width, height) => width ≤ u16Max && height ≤ u16Max

def h264MediaConfig (parser : Parser) (video : VideoFrame) : Except Error (Option MediaConfig) :=
  match extractH264SpsPps video.data with
  | (none, none) => .ok none
  | (some sps, some pps) =>
    if u16Max < video.width then .error (.invalid "H.264 width exceeds MP4 range")
    else if u16Max < video.height then .error (.invalid "H.264 height exceeds MP4 range")
    else
      let (width, height) := (h264PixelDimensions parser sps pps).getD (video.width, video.height)
      .ok (some (.avc width height sps pps))
  | _ => .error (.invalid "H.264 keyframe has incomplete decoder parameters")

def h265MediaConfig (parser : Parser) (video : VideoFrame) : Except Error (Option MediaConfig) :=
  match extractH265Params video.data with
  | (none, none, none) => .ok none
  | (some vps, some sps, some pps) =>
    if [vps, sps, pps].any fun parameter => u16Max < parameter.length then
      .error (.invalid "H.265 parameter set exceeds the 16-bit MP4 wire length")
    else
      match parser.h265 vps sps pps with
      | .error error => .error (.invalid s!"invalid H.265 parameter sets: {error}")
      | .ok (width, height, decoderConfig) =>
        if u16Max < width then .error (.invalid "H.265 width exceeds MP4 range")
        else if u16Max < height then .error (.invalid "H.265 height exceeds MP4 range")
        else .ok (some (.hevc width height vps sps pps decoderConfig))
  | _ => .error (.invalid "H.265 keyframe has incomplete decoder parameters")

def videoMediaConfig (parser : Parser) (video : VideoFrame) : Except Error (Option MediaConfig) :=
  match video.codec with
  | .h264 => h264MediaConfig parser video
  | .h265 => h265MediaConfig parser video

def codecName : VideoCodec → String
  | .h264 => "h264"
  | .h265 => "h265"

def requiredVideoMediaConfig (parser : Parser) (video : VideoFrame) : Except Error MediaConfig :=
  match videoMediaConfig parser video with
  | .error error => .error error
  | .ok none =>
    .error (.invalid (codecName video.codec ++ " keyframe has no decoder parameters"))
  | .ok (some config) => .ok config

def hasParameterSets (video : VideoFrame) : Bool :=
  match video.codec with
  | .h264 => hasH264ParameterSets video.data
  | .h265 => hasH265ParameterSets video.data

structure AdtsInfo where
  headerLen : Nat
  sampleRate : Nat
  channels : UInt8
deriving DecidableEq, Repr

def sampleRates : List Nat :=
  [96000, 88200, 64000, 48000, 44100, 32000, 24000, 22050, 16000, 12000, 11025, 8000, 7350]

def parseAdts : List UInt8 → Option AdtsInfo
  | data@(b0 :: b1 :: b2 :: b3 :: _ :: _ :: _ :: _) =>
    if b0 ≠ 0xff || b1 &&& 0xf0 ≠ 0xf0 then none
    else
      let headerLen := if b1 &&& 0x01 = 1 then 7 else 9
      if data.length < headerLen then none
      else
        (sampleRates[((b2 >>> 2) &&& 0x0f).toNat]?).map fun sampleRate =>
          ⟨headerLen, sampleRate, ((b2 &&& 0x01) <<< 2) ||| ((b3 >>> 6) &&& 0x03)⟩
  | _ => none

def stripAdts (data : List UInt8) : List UInt8 × Option AdtsInfo :=
  match parseAdts data with
  | none => (data, none)
  | some info => (data.drop info.headerLen, some info)

def AudioFrame.rawAac (audio : AudioFrame) : Option (List UInt8) :=
  if audio.codec ≠ .aac then none
  else
    match (stripAdts audio.data).1 with
    | [] => none
    | raw => some raw

def AudioFrame.timescale (audio : AudioFrame) : Nat :=
  ((stripAdts audio.data).2.map AdtsInfo.sampleRate).getD audio.sampleRate

def sampleFreqIndex (rate : Nat) : Nat :=
  if rate ∈ sampleRates.dropLast then rate else 48000

structure AudioTrack where
  timescale : Nat
  config : MediaConfig
deriving DecidableEq, Repr

def AudioFrame.track (audio : AudioFrame) : AudioTrack where
  timescale := AudioFrame.timescale audio
  config := .aac 64000 (sampleFreqIndex (AudioFrame.timescale audio))
    (((stripAdts audio.data).2.map AdtsInfo.channels).getD 1 == 2)

/-- The first AAC frame decides about the audio track. -/
def audioTrackConfig (frames : List RecordingFrame) : Option AudioTrack :=
  frames.findSome? fun frame =>
    match frame.frame with
    | .video _ => none
    | .audio audio => (AudioFrame.rawAac audio).map fun _ => AudioFrame.track audio

end KeepPeek.MediumTerm
