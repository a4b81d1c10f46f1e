import FrameGraph.Resource.Format
import FrameGraph.Text.Quoted

/-! # Image filters

Each filter is a fixed kernel that reads a sampled source and writes a storage destination, one thread
for a pixel. Its parameter block holds a value and a radius.
-/

namespace FrameGraph

inductive ImageFilter where
  | gaussianBlur (sigma : Float32)
  /-- Gradient magnitude of the luminance. -/
  | sobel
  /-- One where the luminance reaches the level, zero elsewhere. -/
  | threshold (level : Float32)
deriving DecidableEq, Inhabited

namespace ImageFilter

def name : ImageFilter → String
  | .gaussianBlur _ => "gaussian blur"
  | .sobel => "sobel"
  | .threshold _ => "threshold"

/-- Edge length of the workgroup of every filter kernel. -/
def workgroupEdge : Nat := 8

/-- The larger of a number and a bound; no number at all gives the bound. -/
def atLeast (bound x : Float32) : Float32 := if x > bound then x else bound

/-- Three deviations, at least one and at most 32 pixels. -/
def blurRadius (sigma : Float32) : UInt32 :=
  let radius := (sigma * 3).ceil
  if radius < 1 then 1 else if radius > 32 then 32 else radius.toUInt32

/-- Value, radius and two words of padding. -/
def params : ImageFilter → List UInt32
  | .gaussianBlur sigma =>
    let sigma := atLeast 0.01 sigma
    [sigma.toBits, blurRadius sigma, 0, 0]
  | .sobel => [0, 1, 0, 0]
  | .threshold level => [level.toBits, 0, 0, 0]

/-- Parameters, source and the helpers that every filter uses. -/
def preludeText : String := Text.lines [
    "struct FilterParams \x7b",
    "    value: f32,",
    "    radius: u32,",
    "    _pad0: u32,",
    "    _pad1: u32,",
    "\x7d",
    "",
    "@group(0) @binding(0) var src: texture_2d<f32>;",
    "@group(0) @binding(2) var<uniform> params: FilterParams;",
    "",
    "fn fetch(coord: vec2<i32>) -> vec4<f32> \x7b",
    "    let limit = vec2<i32>(textureDimensions(src)) - vec2<i32>(1);",
    "    return textureLoad(src, clamp(coord, vec2<i32>(0), limit), 0);",
    "\x7d",
    "",
    "fn luma(color: vec4<f32>) -> f32 \x7b",
    "    return dot(color.rgb, vec3<f32>(0.2126, 0.7152, 0.0722));",
    "\x7d",
    ""]

def blurText : String := Text.lines [
    "    let r = i32(params.radius);",
    "    let denom = 2.0 * params.value * params.value;",
    "    var sum = vec4<f32>(0.0);",
    "    var total = 0.0;",
    "    for (var y = -r; y <= r; y++) \x7b",
    "        for (var x = -r; x <= r; x++) \x7b",
    "            let w = exp(-f32(x * x + y * y) / denom);",
    "            sum += fetch(coord + vec2<i32>(x, y)) * w;",
    "            total += w;",
    "        \x7d",
    "    \x7d",
    "    textureStore(dst, coord, sum / total);"]

def sobelText : String := Text.lines [
    "    var l: array<f32, 9>;",
    "    for (var i = 0; i < 9; i++) \x7b",
    "        l[i] = luma(fetch(coord + vec2<i32>(i % 3 - 1, i / 3 - 1)));",
    "    \x7d",
    "    let gx = (l[2] + 2.0 * l[5] + l[8]) - (l[0] + 2.0 * l[3] + l[6]);",
    "    let gy = (l[6] + 2.0 * l[7] + l[8]) - (l[0] + 2.0 * l[1] + l[2]);",
    "    let m = sqrt(gx * gx + gy * gy);",
    "    textureStore(dst, coord, vec4<f32>(m, m, m, 1.0));"]

def thresholdText : String := Text.lines [
    "    let c = fetch(coord);",
    "    let v = select(0.0, 1.0, luma(c) >= params.value);",
    "    textureStore(dst, coord, vec4<f32>(v, v, v, c.a));"]

def bodyText : ImageFilter → String
  | .gaussianBlur _ => blurText
  | .sobel => sobelText
  | .threshold _ => thresholdText

/-- The kernel for a destination format; absent when programs cannot write the format. -/
def source? (filter : ImageFilter) (format : PixelFormat) : Option String :=
  format.storageName?.map fun storage =>
    preludeText ++ Text.lines [
      s!"@group(0) @binding(1) var dst: texture_storage_2d<{storage}, write>;",
      "",
      s!"@compute @workgroup_size({workgroupEdge}, {workgroupEdge}, 1)",
      "fn main(@builtin(global_invocation_id) gid: vec3<u32>) \x7b",
      "    let size = textureDimensions(dst);",
      "    if (gid.x >= size.x || gid.y >= size.y) \x7b return; \x7d",
      "    let coord = vec2<i32>(gid.xy);"] ++ filter.bodyText ++ "\x7d\n"

end ImageFilter

end FrameGraph
