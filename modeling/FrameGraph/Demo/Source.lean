import FrameGraph.Text.Quoted

/-! # Program texts of the demos -/

namespace FrameGraph.Demo

/-- Helpers of every demo. -/
def libraryText : String := Text.lines [
    "fn hash_u32(x: u32) -> u32 \x7b",
    "    var h = x * 747796405u + 2891336453u;",
    "    h = ((h >> ((h >> 28u) + 4u)) ^ h) * 277803737u;",
    "    return (h >> 22u) ^ h;",
    "\x7d"]

/-- A triangle over the whole target that tiles an image. -/
def presentText : String := Text.lines [
    "@vertex",
    "fn present_vs() -> @builtin(position) vec4<f32> \x7b",
    "    let uv = vec2<f32>(f32((vertex_id << 1u) & 2u), f32(vertex_id & 2u));",
    "    return vec4<f32>(uv * 2.0 - 1.0, 0.0, 1.0);",
    "\x7d",
    "",
    "@fragment",
    "fn present_fs() -> @location(0) vec4<f32> \x7b",
    "    let size = vec2<i32>(textureDimensions(image));",
    "    return textureLoad(image, vec2<i32>(frag_coord.xy) % size, 0);",
    "\x7d"]

/-- A moving gradient. -/
def shadeText : String := Text.lines [
    "@compute",
    "fn shade() \x7b",
    "    let uv = vec2<f32>(gid.xy) / vec2<f32>(grid_size);",
    "    let wave = 0.5 + 0.5 * sin(time + uv.x * 6.2831853);",
    "    textureStore(image, gid.xy, vec4<f32>(uv.x, wave, uv.y, 1.0));",
    "\x7d"]

/-- One step of free flight; particles bounce off the edges. -/
def integrateText : String := Text.lines [
    "@compute",
    "fn integrate() \x7b",
    "    var p = particles[gid.x];",
    "    if (all(p.velocity == vec2<f32>(0.0))) \x7b",
    "        let h = hash_u32(gid.x);",
    "        let angle = f32(h & 0xffffu) / 65535.0 * 6.2831853;",
    "        let speed = 0.1 + 0.4 * f32(h >> 16u) / 65535.0;",
    "        p.velocity = vec2<f32>(cos(angle), sin(angle)) * speed;",
    "    \x7d",
    "    p.position += p.velocity * dt;",
    "    if (abs(p.position.x) > 1.0) \x7b p.velocity.x = -p.velocity.x; \x7d",
    "    if (abs(p.position.y) > 1.0) \x7b p.velocity.y = -p.velocity.y; \x7d",
    "    particles[gid.x] = p;",
    "\x7d"]

/-- Particles as points. -/
def pointsText : String := Text.lines [
    "@vertex",
    "fn point_vs() -> @builtin(position) vec4<f32> \x7b",
    "    return vec4<f32>(particles[vertex_id].position, 0.0, 1.0);",
    "\x7d",
    "",
    "@fragment",
    "fn point_fs() -> @location(0) vec4<f32> \x7b",
    "    return vec4<f32>(1.0, 0.8, 0.3, 1.0);",
    "\x7d"]

/-- Noise from the coordinates and a seed. -/
def bakeText : String := Text.lines [
    "@compute",
    "fn bake() \x7b",
    "    let h = hash_u32(gid.x + gid.y * grid_size.x + seed * 65536u);",
    "    let v = f32(h & 255u) / 255.0;",
    "    textureStore(noise, gid.xy, vec4<f32>(v, v * 0.7, 1.0 - v, 1.0));",
    "\x7d"]

end FrameGraph.Demo
